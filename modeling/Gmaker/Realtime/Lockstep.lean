import Gmaker.Lib.Machine

/-!
# Gmaker.Realtime.Lockstep — the lockstep engine

`LockstepEngine` collects the inputs of a frame and confirms frames in order: a
frame is confirmed when every active player has an input in it, or when it has
waited for `timeoutFrames` ticks of the frame counter; players without an input
then get an empty one. `submitInput` writes into the current frame,
`tryAdvance` confirms from the current frame on, up to 32 frames ahead.

Frame numbers are `uint32_t`. The loop of `tryAdvance` compares with
`current_frame_ + 32`, which wraps: beyond `2 ^ 32 - 33` it does nothing, and at
`2 ^ 32 - 33` its condition is always true, so that it may run for ever. It is
therefore given fuel; `none` means that the fuel is used up.

Between two ticks the engine is `Settled`: inputs lie in the current frame or
behind it. When the current frame then moves on, the engine is `Quiet`: no input of
a player lies where `TryAdvance` starts, so it returns empty inputs only
(`Settled.tryAdvance`).
-/

namespace Gmaker.Realtime

/-- `fixed::Fixed`: a 32.32 fixed-point number, as its raw value. -/
abbrev Fixed := Int64

/-- `PlayerInput`. -/
structure PlayerInput where
  playerId : UInt64 := 0
  inputSeq : UInt32 := 0
  moveX : Fixed := 0
  moveZ : Fixed := 0
  /-- 0xFF: no skill -/
  skillSlot : UInt8 := 0xFF
  skillTargetX : Fixed := 0
  skillTargetZ : Fixed := 0
  skillTargetEid : UInt64 := 0
  hasInput : Bool := false
deriving DecidableEq

/-- `FrameInputs`: the inputs of one frame by player. -/
structure FrameInputs where
  frame : UInt32 := 0
  playerInputs : UInt64 → Option PlayerInput := fun _ => none
  confirmed : Bool := false

/-- `kHistorySize`. -/
def historySize : UInt32 := 300

/-- `LockstepEngine`. -/
structure LockstepEngine where
  currentFrame : UInt32 := 0
  timeoutFrames : UInt32 := 12
  frameCounter : UInt32 := 0
  activePlayers : Finset UInt64 := ∅
  allPlayers : Finset UInt64 := ∅
  frameBuffer : UInt32 → Option FrameInputs := fun _ => none
  lastInputs : UInt64 → Option PlayerInput := fun _ => none
  frameStartCount : UInt32 → Option UInt32 := fun _ => none

namespace LockstepEngine

/-! ## Operations -/

/-- `SetCurrentFrame`: the frame counter is recorded as the frame's start. -/
def setCurrentFrame (e : LockstepEngine) (frame : UInt32) : LockstepEngine :=
  if e.currentFrame < frame then
    { e with
      currentFrame := frame
      frameStartCount := Function.update e.frameStartCount frame (some e.frameCounter) }
  else e

/-- `SetPlayers`. -/
def setPlayers (e : LockstepEngine) (playerIds : List UInt64) : LockstepEngine :=
  { e with activePlayers := playerIds.toFinset, allPlayers := playerIds.toFinset }

/-- `PlayerDisconnected`. -/
def playerDisconnected (e : LockstepEngine) (playerId : UInt64) : LockstepEngine :=
  { e with activePlayers := e.activePlayers.erase playerId }

/-- `PlayerReconnected`. -/
def playerReconnected (e : LockstepEngine) (playerId : UInt64) : LockstepEngine :=
  if playerId ∈ e.allPlayers then
    { e with activePlayers := insert playerId e.activePlayers }
  else e

/-- `TickFrameCounter`. -/
def tickFrameCounter (e : LockstepEngine) : LockstepEngine :=
  { e with frameCounter := e.frameCounter + 1 }

/-- `IsFrameReady`: no active player is without an input. -/
def isFrameReady (e : LockstepEngine) (frame : UInt32) : Bool :=
  match e.frameBuffer frame with
  | none => false
  | some fi => e.activePlayers.filter (fun pid => fi.playerInputs pid = none) = ∅

/-- `MakeEmptyInput`: no input, but the direction of the last one. -/
def makeEmptyInput (e : LockstepEngine) (playerId : UInt64) : PlayerInput :=
  match e.lastInputs playerId with
  | some last => { playerId, moveX := last.moveX, moveZ := last.moveZ }
  | none => { playerId }

/-- `SubmitInput`: whether the current frame is ready, and the engine. -/
def submitInput (e : LockstepEngine) (playerId : UInt64) (input : PlayerInput) :
    Bool × LockstepEngine :=
  if playerId ∉ e.allPlayers then (false, e)
  else
    let fi := (e.frameBuffer e.currentFrame).getD {}
    let fi := { fi with
      frame := e.currentFrame
      playerInputs := Function.update fi.playerInputs playerId (some input) }
    let e := { e with
      frameBuffer := Function.update e.frameBuffer e.currentFrame (some fi)
      lastInputs := Function.update e.lastInputs playerId (some input) }
    (e.isFrameReady e.currentFrame, e)

/-- Empty inputs for the active players that have none. -/
def fillEmpty (e : LockstepEngine) (fi : FrameInputs) : FrameInputs :=
  { fi with playerInputs := fun pid =>
      match fi.playerInputs pid with
      | some input => some input
      | none => if pid ∈ e.activePlayers then some (e.makeEmptyInput pid) else none }

/-- `frame_buffer_[frame] = fi`. -/
def putFrame (e : LockstepEngine) (frame : UInt32) (fi : FrameInputs) : LockstepEngine :=
  { e with frameBuffer := Function.update e.frameBuffer frame (some fi) }

/-- Forget the frame that has fallen out of the history. -/
def eraseHistory (e : LockstepEngine) (frame : UInt32) : LockstepEngine :=
  if historySize < frame then
    { e with
      frameBuffer := Function.update e.frameBuffer (frame - historySize) none
      frameStartCount := Function.update e.frameStartCount (frame - historySize) none }
  else e

/-- How one pass of the loop of `TryAdvance` ends. -/
inductive Pass where
  /-- the frame is confirmed and goes to `out_confirmed` -/
  | confirm (fi : FrameInputs)
  /-- it was confirmed before -/
  | skip
  /-- `break` -/
  | stop

/-- One pass at `checkFrame`: an absent frame gets a placeholder. -/
def checkPass (e : LockstepEngine) (checkFrame : UInt32) : LockstepEngine × Pass :=
  let fi := (e.frameBuffer checkFrame).getD { frame := checkFrame }
  let e := e.putFrame checkFrame fi
  if fi.confirmed then (e, .skip)
  else if e.isFrameReady checkFrame then
    let fi := { fi with confirmed := true }
    ((e.putFrame checkFrame fi).eraseHistory checkFrame, .confirm fi)
  else
    match e.frameStartCount checkFrame with
    | none => (e, .stop)
    | some start =>
      if e.timeoutFrames ≤ e.frameCounter - start then
        let fi := { e.fillEmpty fi with confirmed := true }
        ((e.putFrame checkFrame fi).eraseHistory checkFrame, .confirm fi)
      else (e, .stop)

/-- The loop of `TryAdvance` from `checkFrame` on. -/
def advanceLoop : ℕ → LockstepEngine → UInt32 → List FrameInputs →
    Option (LockstepEngine × List FrameInputs)
  | 0, _, _, _ => none
  | fuel + 1, e, checkFrame, out =>
    if checkFrame ≤ e.currentFrame + 32 then
      match e.checkPass checkFrame with
      | (e, .stop) => some (e, out)
      | (e, .skip) => advanceLoop fuel e (checkFrame + 1) out
      | (e, .confirm fi) => advanceLoop fuel e (checkFrame + 1) (out ++ [fi])
    else some (e, out)

/-- `TryAdvance`: the engine and `out_confirmed`. -/
def tryAdvance (fuel : ℕ) (e : LockstepEngine) : Option (LockstepEngine × List FrameInputs) :=
  advanceLoop fuel e e.currentFrame []

/-! ## One pass -/

section Pass

variable {e e' : LockstepEngine} {frame g : UInt32} {fi : FrameInputs}

@[simp] theorem putFrame_currentFrame : (e.putFrame frame fi).currentFrame = e.currentFrame := rfl
@[simp] theorem putFrame_activePlayers :
    (e.putFrame frame fi).activePlayers = e.activePlayers := rfl

theorem putFrame_frameBuffer :
    (e.putFrame frame fi).frameBuffer g = if g = frame then some fi else e.frameBuffer g := by
  simp [putFrame, Function.update_apply]

@[simp] theorem eraseHistory_currentFrame : (e.eraseHistory frame).currentFrame = e.currentFrame := by
  unfold eraseHistory
  split_ifs <;> rfl

@[simp] theorem eraseHistory_activePlayers :
    (e.eraseHistory frame).activePlayers = e.activePlayers := by
  unfold eraseHistory
  split_ifs <;> rfl

/-- A frame in the buffer after the history was trimmed was there before. -/
theorem frameBuffer_of_eraseHistory (h : (e.eraseHistory frame).frameBuffer g = some fi) :
    e.frameBuffer g = some fi := by
  unfold eraseHistory at h
  split_ifs at h
  · by_cases hg : g = frame - historySize
    · simp [hg] at h
    · simpa [Function.update_of_ne hg] using h
  · exact h

theorem frameStartCount_of_eraseHistory {n : UInt32}
    (h : (e.eraseHistory frame).frameStartCount g = some n) : e.frameStartCount g = some n := by
  unfold eraseHistory at h
  split_ifs at h
  · by_cases hg : g = frame - historySize
    · simp [hg] at h
    · simpa [Function.update_of_ne hg] using h
  · exact h

/-- The frame a pass works on: the one in the buffer, or a placeholder. -/
def frameAt (e : LockstepEngine) (frame : UInt32) : FrameInputs :=
  (e.frameBuffer frame).getD { frame }

/-- What a pass does: it skips a confirmed frame, confirms one that is ready as it
is, confirms one whose time is over with empty inputs, or stops at one that has to wait. -/
theorem checkPass_cases (e : LockstepEngine) (frame : UInt32) :
    ((e.frameAt frame).confirmed = true ∧
      e.checkPass frame = (e.putFrame frame (e.frameAt frame), .skip)) ∨
    ((e.frameAt frame).confirmed = false ∧ ∃ fi,
      ((∀ pid ∈ e.activePlayers, (e.frameAt frame).playerInputs pid ≠ none) ∧
          fi = { e.frameAt frame with confirmed := true } ∨
        (∃ start, e.frameStartCount frame = some start ∧
          e.timeoutFrames ≤ e.frameCounter - start) ∧
          fi = { e.fillEmpty (e.frameAt frame) with confirmed := true }) ∧
      e.checkPass frame =
        (((e.putFrame frame (e.frameAt frame)).putFrame frame fi).eraseHistory frame,
          .confirm fi)) ∨
    ((e.frameAt frame).confirmed = false ∧
      (¬ (∀ pid ∈ e.activePlayers, (e.frameAt frame).playerInputs pid ≠ none) ∧
        ∀ start, e.frameStartCount frame = some start →
          ¬ e.timeoutFrames ≤ e.frameCounter - start) ∧
      e.checkPass frame = (e.putFrame frame (e.frameAt frame), .stop)) := by
  have hready : (e.putFrame frame (e.frameAt frame)).isFrameReady frame = true ↔
      ∀ pid ∈ e.activePlayers, (e.frameAt frame).playerInputs pid ≠ none := by
    simp only [isFrameReady, putFrame, Function.update_self]
    exact decide_eq_true_iff.trans Finset.filter_eq_empty_iff
  have hfill : (e.putFrame frame (e.frameAt frame)).fillEmpty (e.frameAt frame) =
      e.fillEmpty (e.frameAt frame) := rfl
  have hpass : e.checkPass frame =
      if (e.frameAt frame).confirmed then (e.putFrame frame (e.frameAt frame), .skip)
      else if (e.putFrame frame (e.frameAt frame)).isFrameReady frame then
        (((e.putFrame frame (e.frameAt frame)).putFrame frame
          { e.frameAt frame with confirmed := true }).eraseHistory frame,
          .confirm { e.frameAt frame with confirmed := true })
      else match e.frameStartCount frame with
        | none => (e.putFrame frame (e.frameAt frame), .stop)
        | some start =>
          if e.timeoutFrames ≤ e.frameCounter - start then
            (((e.putFrame frame (e.frameAt frame)).putFrame frame
              { e.fillEmpty (e.frameAt frame) with confirmed := true }).eraseHistory frame,
              .confirm { e.fillEmpty (e.frameAt frame) with confirmed := true })
          else (e.putFrame frame (e.frameAt frame), .stop) := rfl
  rw [hpass]
  by_cases hconf : (e.frameAt frame).confirmed = true
  · exact Or.inl ⟨hconf, if_pos hconf⟩
  · have hnot : (e.frameAt frame).confirmed = false := by simpa using hconf
    right
    rw [if_neg hconf]
    by_cases hr : (e.putFrame frame (e.frameAt frame)).isFrameReady frame = true
    · exact Or.inl ⟨hnot, _, Or.inl ⟨hready.mp hr, rfl⟩, if_pos hr⟩
    · rw [if_neg hr]
      cases hstart : e.frameStartCount frame with
      | none => exact Or.inr ⟨hnot, ⟨fun h => hr (hready.mpr h), fun start h => by cases h⟩, rfl⟩
      | some start =>
        by_cases htime : e.timeoutFrames ≤ e.frameCounter - start
        · exact Or.inl ⟨hnot, _, Or.inr ⟨⟨start, rfl, htime⟩, rfl⟩, if_pos htime⟩
        · refine Or.inr ⟨hnot, ⟨fun h => hr (hready.mpr h), fun start' h => ?_⟩, if_neg htime⟩
          exact Option.some.inj h ▸ htime

end Pass

/-! ## Quiet engines -/

/-- Every input in the frame is an empty one. -/
def OnlyEmpty (fi : FrameInputs) : Prop :=
  ∀ pid input, fi.playerInputs pid = some input → input.hasInput = false

/-- From the current frame on there are no inputs of players, beyond it no inputs
at all, and no frame beyond it has been started. -/
structure Quiet (e : LockstepEngine) : Prop where
  onlyEmpty : ∀ g fi, e.frameBuffer g = some fi → e.currentFrame ≤ g → OnlyEmpty fi
  later : ∀ g fi, e.frameBuffer g = some fi → e.currentFrame < g → ∀ pid, fi.playerInputs pid = none
  started : ∀ g n, e.frameStartCount g = some n → g ≤ e.currentFrame

section Quiet

variable {e e' : LockstepEngine} {frame : UInt32} {fi : FrameInputs} {pass : Pass}

theorem onlyEmpty_of_none (h : ∀ pid, fi.playerInputs pid = none) : OnlyEmpty fi := by
  intro pid input hinput
  rw [h pid] at hinput
  cases hinput

/-- The frame a pass works on, in a quiet engine. -/
theorem Quiet.frameAt (h : Quiet e) (hle : e.currentFrame ≤ frame) :
    OnlyEmpty (e.frameAt frame) ∧
      (e.currentFrame < frame → ∀ pid, (e.frameAt frame).playerInputs pid = none) := by
  unfold LockstepEngine.frameAt
  cases hbuf : e.frameBuffer frame with
  | none => exact ⟨onlyEmpty_of_none fun _ => rfl, fun _ _ => rfl⟩
  | some fi => exact ⟨h.onlyEmpty frame fi hbuf hle, h.later frame fi hbuf⟩

theorem Quiet.putFrame (h : Quiet e) (hempty : OnlyEmpty fi)
    (hlater : e.currentFrame < frame → ∀ pid, fi.playerInputs pid = none) :
    Quiet (e.putFrame frame fi) := by
  refine ⟨fun g fi' hbuf hle => ?_, fun g fi' hbuf hlt => ?_, h.started⟩
  · rw [putFrame_frameBuffer] at hbuf
    split_ifs at hbuf
    · cases hbuf
      exact hempty
    · exact h.onlyEmpty g fi' hbuf hle
  · rw [putFrame_frameBuffer] at hbuf
    split_ifs at hbuf with hg
    · cases hbuf
      exact hlater (hg ▸ hlt)
    · exact h.later g fi' hbuf hlt

theorem Quiet.eraseHistory (h : Quiet e) (frame : UInt32) : Quiet (e.eraseHistory frame) := by
  refine ⟨fun g fi hbuf hle => ?_, fun g fi hbuf hlt => ?_, fun g n hstart => ?_⟩
  · rw [eraseHistory_currentFrame] at hle
    exact h.onlyEmpty g fi (frameBuffer_of_eraseHistory hbuf) hle
  · rw [eraseHistory_currentFrame] at hlt
    exact h.later g fi (frameBuffer_of_eraseHistory hbuf) hlt
  · rw [eraseHistory_currentFrame]
    exact h.started g n (frameStartCount_of_eraseHistory hstart)

/-- Filling up adds empty inputs only. -/
theorem onlyEmpty_fillEmpty (h : OnlyEmpty fi) : OnlyEmpty (e.fillEmpty fi) := by
  intro pid input hinput
  simp only [fillEmpty] at hinput
  cases hold : fi.playerInputs pid with
  | some old =>
    simp only [hold, Option.some.injEq] at hinput
    exact hinput ▸ h pid old hold
  | none =>
    simp only [hold] at hinput
    split_ifs at hinput
    rw [Option.some.injEq] at hinput
    rw [← hinput]
    unfold makeEmptyInput
    cases e.lastInputs pid <;> rfl

/-- A pass over a quiet engine leaves it quiet and confirms empty inputs only. -/
theorem Quiet.checkPass (h : Quiet e) (hle : e.currentFrame ≤ frame)
    (hpass : e.checkPass frame = (e', pass)) :
    Quiet e' ∧ ∀ fi, pass = .confirm fi → OnlyEmpty fi := by
  obtain ⟨hempty, hlater⟩ := h.frameAt hle
  have hput := h.putFrame hempty hlater
  rcases checkPass_cases e frame with ⟨-, heq⟩ | ⟨-, fi, hfi, heq⟩ | ⟨-, -, heq⟩
  · rw [heq] at hpass
    cases hpass
    exact ⟨hput, fun fi hfi => by cases hfi⟩
  · rw [heq] at hpass
    cases hpass
    have hfi' : OnlyEmpty fi ∧ (e.currentFrame < frame → ∀ pid, fi.playerInputs pid = none) := by
      rcases hfi with ⟨-, rfl⟩ | ⟨⟨start, hstart, -⟩, rfl⟩
      · exact ⟨hempty, hlater⟩
      · -- only a started frame is filled up, and that is not beyond the current one
        have hge := h.started frame start hstart
        exact ⟨onlyEmpty_fillEmpty hempty, fun hlt => absurd hlt (UInt32.not_lt.mpr hge)⟩
    refine ⟨(hput.putFrame hfi'.1 hfi'.2).eraseHistory frame, fun fi' heq' => ?_⟩
    cases heq'
    exact hfi'.1
  · rw [heq] at hpass
    cases hpass
    exact ⟨hput, fun fi hfi => by cases hfi⟩

/-- A pass leaves the current frame and the players alone, and confirms no other
frame than its own. -/
theorem checkPass_frame (hpass : e.checkPass frame = (e', pass)) :
    e'.currentFrame = e.currentFrame ∧ e'.activePlayers = e.activePlayers ∧
      ∀ g fi, e'.frameBuffer g = some fi → fi.confirmed = true →
        g = frame ∨ ∃ fi', e.frameBuffer g = some fi' ∧ fi'.confirmed = true := by
  have hput : ∀ (a : LockstepEngine) (x : FrameInputs) g fi, (a.putFrame frame x).frameBuffer g = some fi →
      fi.confirmed = true → g = frame ∨ a.frameBuffer g = some fi := by
    intro a x g fi hbuf _
    rw [putFrame_frameBuffer] at hbuf
    split_ifs at hbuf with hg
    · exact Or.inl hg
    · exact Or.inr hbuf
  rcases checkPass_cases e frame with ⟨-, heq⟩ | ⟨-, fi, -, heq⟩ | ⟨-, -, heq⟩
  · rw [heq] at hpass
    cases hpass
    exact ⟨rfl, rfl, fun g fi hbuf hc => (hput e _ g fi hbuf hc).imp_right fun h => ⟨fi, h, hc⟩⟩
  · rw [heq] at hpass
    cases hpass
    refine ⟨by simp, by simp, fun g fi' hbuf hc => ?_⟩
    rcases hput _ _ g fi' (frameBuffer_of_eraseHistory hbuf) hc with hg | hbuf
    · exact Or.inl hg
    · exact (hput e _ g fi' hbuf hc).imp_right fun h => ⟨fi', h, hc⟩
  · rw [heq] at hpass
    cases hpass
    exact ⟨rfl, rfl, fun g fi hbuf hc => (hput e _ g fi hbuf hc).imp_right fun h => ⟨fi, h, hc⟩⟩

end Quiet

/-! ## The loop -/

/-- The confirmed frames lie within the reach of the loop, or behind it. -/
def Ahead (e : LockstepEngine) (bound : ℕ) : Prop :=
  ∀ g fi, e.frameBuffer g = some fi → fi.confirmed = true →
    g.toNat < max bound (e.currentFrame.toNat + 32)

section Loop

variable {e e' : LockstepEngine} {frame : UInt32} {pass : Pass} {out out' : List FrameInputs}

/-- The bound of the loop: `current_frame_ + 32`, or past the end of the numbers. -/
theorem toNat_reach (c : UInt32) :
    c.toNat + 32 < 2 ^ 32 ∧ (c + 32).toNat = c.toNat + 32 ∨
      2 ^ 32 ≤ c.toNat + 32 ∧ (c + 32).toNat + 2 ^ 32 = c.toNat + 32 := by
  have hc := c.toNat_lt
  have h32 : (32 : UInt32).toNat = 32 := rfl
  rw [UInt32.toNat_add, h32]
  omega

theorem toNat_succ (h : frame.toNat ≠ 2 ^ 32 - 1) : (frame + 1).toNat = frame.toNat + 1 := by
  have hlt := frame.toNat_lt
  rw [UInt32.toNat_add, UInt32.toNat_one]
  omega

/-- With no active player and a condition that is always true the loop never
ends. -/
theorem advanceLoop_none (fuel : ℕ) (hactive : e.activePlayers = ∅)
    (hbound : e.currentFrame.toNat + 32 = 2 ^ 32 - 1) : advanceLoop fuel e frame out = none := by
  induction fuel generalizing e frame out with
  | zero => rfl
  | succ fuel ih =>
    have hle : frame ≤ e.currentFrame + 32 := by
      have hlt := frame.toNat_lt
      have hreach := toNat_reach e.currentFrame
      rw [UInt32.le_iff_toNat_le]
      omega
    rw [advanceLoop, if_pos hle]
    cases hpass : e.checkPass frame with
    | mk a pass =>
      obtain ⟨hcur, hact, -⟩ := checkPass_frame hpass
      have hrest : ∀ out, advanceLoop fuel a (frame + 1) out = none :=
        fun out => ih (hact.trans hactive) (by rw [hcur]; exact hbound)
      cases pass with
      | confirm fi => exact hrest _
      | skip => exact hrest _
      | stop =>
        rcases checkPass_cases e frame with ⟨-, heq⟩ | ⟨-, fi, -, heq⟩ | ⟨-, ⟨hnot, -⟩, -⟩
        · rw [heq] at hpass
          cases hpass
        · rw [heq] at hpass
          cases hpass
        · exact absurd (fun pid hpid => by simp [hactive] at hpid) hnot

/-- A frame that has no inputs and was not started is confirmed only when nobody is active. -/
theorem nobody_active (hnone : ∀ pid, (e.frameAt frame).playerInputs pid = none)
    (hstart : e.frameStartCount frame = none) (hnot : (e.frameAt frame).confirmed = false)
    (hpass : e.checkPass frame = (e', pass)) (hgoes : pass ≠ .stop) : e.activePlayers = ∅ := by
  rcases checkPass_cases e frame with ⟨hc, -⟩ | ⟨-, fi, hfi, -⟩ | ⟨-, -, heq⟩
  · rw [hnot] at hc
    cases hc
  · rcases hfi with ⟨hready, -⟩ | ⟨⟨start, hstart', -⟩, -⟩
    · exact Finset.eq_empty_of_forall_notMem fun pid hpid => hready pid hpid (hnone pid)
    · rw [hstart] at hstart'
      cases hstart'
  · rw [heq] at hpass
    cases hpass
    exact absurd rfl hgoes

/-- A loop that gets past the last frame number never ends: its bound is the last number,
too, and nobody is active. -/
theorem advanceLoop_last (fuel : ℕ) (hcond : frame ≤ e.currentFrame + 32)
    (hlast : frame.toNat = 2 ^ 32 - 1) (hlt : e.currentFrame < frame)
    (hnone : ∀ pid, (e.frameAt frame).playerInputs pid = none)
    (hstarted : ∀ g n, e.frameStartCount g = some n → g ≤ e.currentFrame)
    (hnot : (e.frameAt frame).confirmed = false) (hpass : e.checkPass frame = (e', pass))
    (hgoes : pass ≠ .stop) : advanceLoop fuel e' (frame + 1) out = none := by
  have hstart : e.frameStartCount frame = none := by
    refine Option.eq_none_iff_forall_ne_some.mpr fun n hn => ?_
    exact absurd hlt (UInt32.not_lt.mpr (hstarted frame n hn))
  have hnobody := nobody_active hnone hstart hnot hpass hgoes
  obtain ⟨hcur, hact, -⟩ := checkPass_frame hpass
  have hcondNat := UInt32.le_iff_toNat_le.mp hcond
  have hltNat := UInt32.lt_iff_toNat_lt.mp hlt
  have hreach := toNat_reach e.currentFrame
  refine advanceLoop_none fuel (hact.trans hnobody) ?_
  rw [hcur]
  omega

/-- The loop over a quiet engine leaves it quiet and confirms empty inputs only. -/
theorem advanceLoop_quiet (fuel : ℕ) (h : Quiet e) (hle : e.currentFrame ≤ frame)
    (hframe : frame.toNat ≤ e.currentFrame.toNat + 33) (hahead : Ahead e frame.toNat)
    (hout : ∀ fi ∈ out, OnlyEmpty fi) (hrun : advanceLoop fuel e frame out = some (e', out')) :
    Quiet e' ∧ e'.currentFrame = e.currentFrame ∧ Ahead e' (e.currentFrame.toNat + 33) ∧
      ∀ fi ∈ out', OnlyEmpty fi := by
  induction fuel generalizing e frame out with
  | zero => cases hrun
  | succ fuel ih =>
    have hleNat := UInt32.le_iff_toNat_le.mp hle
    have hreach := toNat_reach e.currentFrame
    rw [advanceLoop] at hrun
    split_ifs at hrun with hcond
    · have hcondNat := UInt32.le_iff_toNat_le.mp hcond
      have hmax := frame.toNat_lt
      cases hpass : e.checkPass frame with
      | mk a pass =>
        obtain ⟨hq, hconfirm⟩ := h.checkPass hle hpass
        obtain ⟨hcur, hact, hconf⟩ := checkPass_frame hpass
        have hahead' : ∀ bound, frame.toNat < bound → Ahead a bound := by
          intro bound hbound g fi hbuf hc
          rw [hcur]
          rcases hconf g fi hbuf hc with rfl | ⟨fi', hbuf', hc'⟩
          · exact lt_max_of_lt_left hbound
          · have := hahead g fi' hbuf' hc'
            omega
        rw [hpass] at hrun
        -- going on with the next frame
        have hgo : ∀ next, (∀ fi ∈ next, OnlyEmpty fi) → pass ≠ .stop →
            advanceLoop fuel a (frame + 1) next = some (e', out') →
            Quiet e' ∧ e'.currentFrame = e.currentFrame ∧
              Ahead e' (e.currentFrame.toNat + 33) ∧ ∀ fi ∈ out', OnlyEmpty fi := by
          intro next hnext hgoes hrun
          by_cases hwrap : frame.toNat = 2 ^ 32 - 1
          · -- after the last frame number the loop would start over: it gets past that
            -- frame only when nobody is active, and then it never ends
            have hnot : (e.frameAt frame).confirmed = false := by
              unfold LockstepEngine.frameAt
              cases hbuf : e.frameBuffer frame with
              | none => rfl
              | some fi =>
                by_contra hc
                have := hahead frame fi hbuf (by simpa using hc)
                omega
            have hlt : e.currentFrame < frame := by
              rw [UInt32.lt_iff_toNat_lt]
              omega
            rw [advanceLoop_last fuel hcond hwrap hlt ((h.frameAt hle).2 hlt) h.started hnot hpass
              hgoes] at hrun
            cases hrun
          · have hsucc := toNat_succ hwrap
            have hle' : a.currentFrame ≤ frame + 1 := by
              rw [hcur, UInt32.le_iff_toNat_le, hsucc]
              omega
            have := ih hq hle' (by rw [hcur]; omega) (hahead' _ (by omega)) hnext hrun
            rwa [hcur] at this
        cases pass with
        | stop =>
          cases hrun
          exact ⟨hq, hcur, hahead' _ (by omega), hout⟩
        | skip => exact hgo out hout (by simp) hrun
        | confirm fi =>
          refine hgo (out ++ [fi]) (fun fi' hmem => ?_) (by simp) hrun
          rcases List.mem_append.mp hmem with hold | hnew
          · exact hout fi' hold
          · rw [List.mem_singleton.mp hnew]
            exact hconfirm fi rfl
    · cases hrun
      refine ⟨h, rfl, fun g fi hbuf hc => ?_, hout⟩
      have := hahead g fi hbuf hc
      omega

/-- The loop ends when its condition can be false: one pass for each frame up to
the bound, and one to see that it is over. -/
theorem advanceLoop_isSome {fuel : ℕ} (hbound : (e.currentFrame + 32).toNat ≠ 2 ^ 32 - 1)
    (hfuel : (e.currentFrame + 32).toNat + 1 - frame.toNat < fuel) :
    (advanceLoop fuel e frame out).isSome := by
  induction fuel generalizing e frame out with
  | zero => omega
  | succ fuel ih =>
    rw [advanceLoop]
    split_ifs with hcond
    · have hcondNat := UInt32.le_iff_toNat_le.mp hcond
      have hmax := (e.currentFrame + 32).toNat_lt
      have hnot : frame.toNat ≠ 2 ^ 32 - 1 := by omega
      have hsucc := toNat_succ hnot
      cases hpass : e.checkPass frame with
      | mk a pass =>
        have hcur := (checkPass_frame hpass).1
        have hgo : ∀ next, (advanceLoop fuel a (frame + 1) next).isSome := fun next =>
          ih (by rw [hcur]; exact hbound) (by rw [hcur, hsucc]; omega)
        cases pass with
        | stop => rfl
        | skip => exact hgo out
        | confirm fi => exact hgo (out ++ [fi])
    · rfl

end Loop

/-- `TryAdvance` returns, except perhaps at the one frame number whose bound is the
largest number there is. -/
theorem tryAdvance_isSome (e : LockstepEngine) (h : e.currentFrame.toNat ≠ 2 ^ 32 - 33) :
    (tryAdvance 34 e).isSome := by
  have hlt := e.currentFrame.toNat_lt
  have hreach := toNat_reach e.currentFrame
  have hbound : (e.currentFrame + 32).toNat ≠ 2 ^ 32 - 1 := by omega
  have hfuel : (e.currentFrame + 32).toNat + 1 - e.currentFrame.toNat < 34 := by omega
  exact advanceLoop_isSome hbound hfuel

theorem tryAdvance_isSome_new : (tryAdvance 34 { timeoutFrames := 3 }).isSome :=
  tryAdvance_isSome _ (by decide)

/-! ## Between two ticks -/

/-- The engine between two ticks: inputs lie in the current frame or behind it, no
later frame has been started, and what is confirmed is within reach. -/
structure Settled (e : LockstepEngine) : Prop where
  later : ∀ g fi, e.frameBuffer g = some fi → e.currentFrame < g → ∀ pid, fi.playerInputs pid = none
  started : ∀ g n, e.frameStartCount g = some n → g ≤ e.currentFrame
  ahead : Ahead e (e.currentFrame.toNat + 33)

section Settled

variable {e e' : LockstepEngine} {frame : UInt32} {playerId : UInt64} {input : PlayerInput}

/-- A new engine. -/
theorem settled_new (timeoutFrames : UInt32) : Settled { timeoutFrames } := by
  refine ⟨fun g fi hbuf => ?_, fun g n hstart => ?_, fun g fi hbuf => ?_⟩
  · cases hbuf
  · cases hstart
  · cases hbuf

/-- Only the frames count. -/
theorem Settled.congr (h : Settled e) (hcur : e'.currentFrame = e.currentFrame)
    (hbuf : e'.frameBuffer = e.frameBuffer) (hstart : e'.frameStartCount = e.frameStartCount) :
    Settled e' := by
  refine ⟨?_, ?_, ?_⟩
  · rw [hcur, hbuf]
    exact h.later
  · rw [hcur, hstart]
    exact h.started
  · intro g fi
    rw [hbuf, hcur]
    exact h.ahead g fi

theorem Settled.setPlayers (h : Settled e) (playerIds : List UInt64) :
    Settled (e.setPlayers playerIds) := h.congr rfl rfl rfl

theorem Settled.playerDisconnected (h : Settled e) : Settled (e.playerDisconnected playerId) :=
  h.congr rfl rfl rfl

theorem Settled.playerReconnected (h : Settled e) : Settled (e.playerReconnected playerId) := by
  unfold LockstepEngine.playerReconnected
  split_ifs
  · exact h.congr rfl rfl rfl
  · exact h

theorem Settled.tickFrameCounter (h : Settled e) : Settled e.tickFrameCounter :=
  h.congr rfl rfl rfl

@[simp] theorem submitInput_currentFrame :
    (e.submitInput playerId input).2.currentFrame = e.currentFrame := by
  unfold submitInput
  split_ifs <;> rfl

@[simp] theorem submitInput_frameStartCount :
    (e.submitInput playerId input).2.frameStartCount = e.frameStartCount := by
  unfold submitInput
  split_ifs <;> rfl

/-- An input goes into the current frame. -/
theorem Settled.submitInput (h : Settled e) : Settled (e.submitInput playerId input).2 := by
  unfold LockstepEngine.submitInput
  split_ifs with hknown
  · refine ⟨fun g fi hbuf hlt => ?_, h.started, fun g fi hbuf hc => ?_⟩
    · have hne : g ≠ e.currentFrame := by
        rintro rfl
        exact absurd hlt (UInt32.lt_irrefl _)
      exact h.later g fi (by simpa [Function.update_of_ne hne] using hbuf) hlt
    · by_cases hg : g = e.currentFrame
      · have := UInt32.toNat_inj.mpr hg
        exact lt_max_of_lt_left (by change _ < e.currentFrame.toNat + 33; omega)
      · exact h.ahead g fi (by simpa [Function.update_of_ne hg] using hbuf) hc
  · exact h

/-- The next frame starts without inputs. -/
theorem Settled.quiet_setCurrentFrame (h : Settled e) (hlt : e.currentFrame < frame) :
    Quiet (e.setCurrentFrame frame) ∧ (e.setCurrentFrame frame).currentFrame = frame ∧
      Ahead (e.setCurrentFrame frame) frame.toNat := by
  have hltNat := UInt32.lt_iff_toNat_lt.mp hlt
  have heq : e.setCurrentFrame frame = { e with
      currentFrame := frame
      frameStartCount := Function.update e.frameStartCount frame (some e.frameCounter) } :=
    if_pos hlt
  rw [heq]
  refine ⟨⟨fun g fi hbuf hle => ?_, fun g fi hbuf hlt' => ?_, fun g n hstart => ?_⟩, rfl,
    fun g fi hbuf hc => ?_⟩
  · exact onlyEmpty_of_none (h.later g fi hbuf (UInt32.lt_of_lt_of_le hlt hle))
  · exact h.later g fi hbuf (UInt32.lt_trans hlt hlt')
  · by_cases hg : g = frame
    · exact hg ▸ UInt32.le_refl _
    · have := h.started g n (by simpa [Function.update_of_ne hg] using hstart)
      exact UInt32.le_of_lt (UInt32.lt_of_le_of_lt this hlt)
  · have := h.ahead g fi hbuf hc
    change g.toNat < max frame.toNat (frame.toNat + 32)
    omega

/-- `SetCurrentFrame` to a later frame and `TryAdvance`: whatever has been submitted
before, no input of a player is in the frames that are returned. -/
theorem Settled.tryAdvance {fuel : ℕ} {out : List FrameInputs} (h : Settled e)
    (hlt : e.currentFrame < frame)
    (hrun : tryAdvance fuel (e.setCurrentFrame frame) = some (e', out)) :
    Settled e' ∧ e'.currentFrame = frame ∧ ∀ fi ∈ out, OnlyEmpty fi := by
  obtain ⟨hquiet, hcur, hahead⟩ := h.quiet_setCurrentFrame hlt
  unfold LockstepEngine.tryAdvance at hrun
  obtain ⟨hq, hcur', hahead', hout⟩ := advanceLoop_quiet fuel hquiet (UInt32.le_refl _)
    (Nat.le_add_right _ _) (by rw [hcur]; exact hahead) (by simp) hrun
  have hc := hcur'.trans hcur
  refine ⟨⟨hq.later, hq.started, ?_⟩, hc, hout⟩
  rw [hcur']
  exact hahead'

end Settled

end LockstepEngine

end Gmaker.Realtime
