import Gmaker.Realtime.Lockstep

/-!
# Gmaker.Realtime.Finality — confirmed frames stay as they were returned

Clients replay the frames that `TryAdvance` returns, and one that joins late gets them from
the buffer. Both should see the same: each frame is returned once, in order, and what the
buffer has of it is what was returned.

The order holds whatever happens: the frames from the current one up to the last one that
was returned are confirmed, and a pass goes over them. What is returned may change, though:
`SubmitInput` writes into the current frame whether it is confirmed or not.
-/

namespace Gmaker.Realtime

open Gmaker.Lib

/-- What may be called on the engine. -/
inductive EngineOp where
  | setPlayers (playerIds : List UInt64)
  | submitInput (playerId : UInt64) (input : PlayerInput)
  | playerDisconnected (playerId : UInt64)
  | playerReconnected (playerId : UInt64)
  | tickFrameCounter
  | setCurrentFrame (frame : UInt32)
  | tryAdvance (fuel : ℕ)
deriving DecidableEq

/-- The engine, and what `TryAdvance` has returned so far. -/
structure EngineRun where
  engine : LockstepEngine := {}
  returned : List FrameInputs := []

namespace LockstepEngine

variable {e e' : LockstepEngine} {returned out out' : List FrameInputs} {fi : FrameInputs}
  {frame g : UInt32}

/-! ## What the buffer has of the returned frames -/

/-- The frame has been confirmed and is in the buffer. -/
def ConfirmedAt (e : LockstepEngine) (g : UInt32) : Prop :=
  ∃ fi, e.frameBuffer g = some fi ∧ fi.confirmed = true

/-- The buffer against what was returned. Frames beyond the current one have no inputs and
are not started; the confirmed frames are the returned ones, unless they have fallen out of
the history; and none between the current frame and a returned one is open. -/
structure Recorded (e : LockstepEngine) (returned : List FrameInputs) : Prop where
  later : ∀ g fi, e.frameBuffer g = some fi → e.currentFrame < g → ∀ pid, fi.playerInputs pid = none
  started : ∀ g n, e.frameStartCount g = some n → g ≤ e.currentFrame
  keyed : ∀ g fi, e.frameBuffer g = some fi → fi.frame = g
  known : ∀ g fi, e.frameBuffer g = some fi → fi.confirmed = true → fi ∈ returned
  kept : ∀ fi ∈ returned, fi.confirmed = true ∧ (e.frameBuffer fi.frame = some fi ∨
    e.frameBuffer fi.frame = none ∧ fi.frame < e.currentFrame)
  covered : ∀ fi ∈ returned, ∀ g, e.currentFrame ≤ g → g ≤ fi.frame → e.ConfirmedAt g
  reach : ∀ fi ∈ returned, fi.frame.toNat + 1 < 2 ^ 32 ∧
    fi.frame.toNat ≤ e.currentFrame.toNat + 32
  sorted : (returned.map FrameInputs.frame).Pairwise (· < ·)

theorem recorded_new (timeoutFrames : UInt32) : Recorded { timeoutFrames } [] := by
  refine ⟨fun g fi hbuf => ?_, fun g n hstart => ?_, fun g fi hbuf => ?_, fun g fi hbuf => ?_,
    fun fi hfi => ?_, fun fi hfi => ?_, fun fi hfi => ?_, .nil⟩
  · cases hbuf
  · cases hstart
  · cases hbuf
  · cases hbuf
  · cases hfi
  · cases hfi
  · cases hfi

/-- Only the frames count. -/
theorem Recorded.congr (h : Recorded e returned) (hcur : e'.currentFrame = e.currentFrame)
    (hbuf : e'.frameBuffer = e.frameBuffer) (hstart : e'.frameStartCount = e.frameStartCount) :
    Recorded e' returned := by
  obtain ⟨later, started, keyed, known, kept, covered, reach, sorted⟩ := h
  constructor
  case sorted => exact sorted
  all_goals
    simp only [ConfirmedAt, hcur, hbuf, hstart] at *
    assumption

/-- What was returned is not open again. -/
theorem Recorded.ne_frame (h : Recorded e returned) (hnot : ¬ e.ConfirmedAt g)
    (hle : e.currentFrame ≤ g) (hfi : fi ∈ returned) : fi.frame ≠ g := by
  rintro rfl
  exact hnot (h.covered fi hfi fi.frame hle (UInt32.le_refl _))

/-- A frame that is not confirmed may be written, if the rules for frames beyond the current
one are kept. -/
theorem Recorded.putFrame (h : Recorded e returned) (hle : e.currentFrame ≤ frame)
    (hnot : ¬ e.ConfirmedAt frame) (hkey : fi.frame = frame) (hopen : fi.confirmed = false)
    (hlater : e.currentFrame < frame → ∀ pid, fi.playerInputs pid = none) :
    Recorded (e.putFrame frame fi) returned := by
  have hother : ∀ g, g ≠ frame → (e.putFrame frame fi).frameBuffer g = e.frameBuffer g := by
    intro g hg
    rw [putFrame_frameBuffer, if_neg hg]
  refine ⟨fun g fi' hbuf hlt => ?_, h.started, fun g fi' hbuf => ?_, fun g fi' hbuf hc => ?_,
    fun fi' hfi' => ?_, fun fi' hfi' g hge hg => ?_, h.reach, h.sorted⟩
  · rw [putFrame_frameBuffer] at hbuf
    split_ifs at hbuf with hg
    · cases hbuf
      exact hlater (hg ▸ hlt)
    · exact h.later g fi' hbuf hlt
  · rw [putFrame_frameBuffer] at hbuf
    split_ifs at hbuf with hg
    · cases hbuf
      exact hkey.trans hg.symm
    · exact h.keyed g fi' hbuf
  · rw [putFrame_frameBuffer] at hbuf
    split_ifs at hbuf with hg
    · cases hbuf
      rw [hopen] at hc
      cases hc
    · exact h.known g fi' hbuf hc
  · rw [hother _ (h.ne_frame hnot hle hfi')]
    exact h.kept fi' hfi'
  · have hconf := h.covered fi' hfi' g hge hg
    have hne : g ≠ frame := by
      rintro rfl
      exact hnot hconf
    obtain ⟨fi₀, hbuf, hc⟩ := hconf
    exact ⟨fi₀, (hother g hne).trans hbuf, hc⟩

/-- What falls out of the history lies behind the current frame. -/
theorem eraseHistory_frameBuffer_of_le (hreach : frame.toNat ≤ e.currentFrame.toNat + 32)
    (hle : e.currentFrame ≤ g) : (e.eraseHistory frame).frameBuffer g = e.frameBuffer g := by
  unfold eraseHistory
  split_ifs with hsize
  · have hsizeNat := UInt32.lt_iff_toNat_lt.mp hsize
    have hne : g ≠ frame - historySize := by
      rintro rfl
      rw [UInt32.le_iff_toNat_le, UInt32.toNat_sub_of_le _ _ (UInt32.le_of_lt hsize)] at hle
      have h300 : historySize.toNat = 300 := rfl
      omega
    exact Function.update_of_ne hne _ _
  · rfl

theorem eraseHistory_frameBuffer (e : LockstepEngine) (frame g : UInt32) :
    (e.eraseHistory frame).frameBuffer g = e.frameBuffer g ∨
      (e.eraseHistory frame).frameBuffer g = none := by
  cases hbuf : (e.eraseHistory frame).frameBuffer g with
  | none => exact .inr rfl
  | some fi => exact .inl (frameBuffer_of_eraseHistory hbuf).symm

/-- A frame is confirmed and returned: it comes after all that were returned before. -/
theorem Recorded.confirm (h : Recorded e returned) (hle : e.currentFrame ≤ frame)
    (hreach : frame.toNat ≤ e.currentFrame.toNat + 32) (hlast : frame.toNat + 1 < 2 ^ 32)
    (hnot : ¬ e.ConfirmedAt frame) (hkey : fi.frame = frame) (hconf : fi.confirmed = true)
    (hlater : e.currentFrame < frame → ∀ pid, fi.playerInputs pid = none)
    (hpassed : ∀ g, e.currentFrame ≤ g → g < frame → e.ConfirmedAt g) :
    Recorded ((e.putFrame frame fi).eraseHistory frame) (returned ++ [fi]) := by
  have hahead : ∀ g, e.currentFrame ≤ g → ((e.putFrame frame fi).eraseHistory frame).frameBuffer g =
      if g = frame then some fi else e.frameBuffer g := by
    intro g hg
    rw [eraseHistory_frameBuffer_of_le (e := e.putFrame frame fi) hreach hg, putFrame_frameBuffer]
  have hmem : ∀ g fi', ((e.putFrame frame fi).eraseHistory frame).frameBuffer g = some fi' →
      g = frame ∧ fi' = fi ∨ g ≠ frame ∧ e.frameBuffer g = some fi' := by
    intro g fi' hbuf
    have hbuf := frameBuffer_of_eraseHistory hbuf
    rw [putFrame_frameBuffer] at hbuf
    split_ifs at hbuf with hg
    · cases hbuf
      exact .inl ⟨hg, rfl⟩
    · exact .inr ⟨hg, hbuf⟩
  constructor
  · intro g fi' hbuf hlt
    rw [eraseHistory_currentFrame] at hlt
    rcases hmem g fi' hbuf with ⟨rfl, rfl⟩ | ⟨-, hbuf⟩
    · exact hlater hlt
    · exact h.later g fi' hbuf hlt
  · intro g n hstart
    rw [eraseHistory_currentFrame]
    have hstart : (e.putFrame frame fi).frameStartCount g = some n :=
      frameStartCount_of_eraseHistory hstart
    exact h.started g n hstart
  · intro g fi' hbuf
    rcases hmem g fi' hbuf with ⟨rfl, rfl⟩ | ⟨-, hbuf⟩
    · exact hkey
    · exact h.keyed g fi' hbuf
  · intro g fi' hbuf hc
    rcases hmem g fi' hbuf with ⟨-, rfl⟩ | ⟨-, hbuf⟩
    · exact List.mem_append_right _ (List.mem_singleton.mpr rfl)
    · exact List.mem_append_left _ (h.known g fi' hbuf hc)
  · intro fi' hfi'
    rw [eraseHistory_currentFrame]
    rcases List.mem_append.mp hfi' with hold | hnew
    · have hne := h.ne_frame hnot hle hold
      obtain ⟨hc, hbuf | ⟨hbuf, hlt⟩⟩ := h.kept fi' hold
      · refine ⟨hc, ?_⟩
        rcases UInt32.lt_or_le fi'.frame e.currentFrame with hlt | hge
        · rcases eraseHistory_frameBuffer (e.putFrame frame fi) frame fi'.frame with heq | heq
          · rw [heq, putFrame_frameBuffer, if_neg hne]
            exact .inl hbuf
          · exact .inr ⟨heq, hlt⟩
        · rw [hahead _ hge, if_neg hne]
          exact .inl hbuf
      · refine ⟨hc, .inr ⟨?_, hlt⟩⟩
        rcases eraseHistory_frameBuffer (e.putFrame frame fi) frame fi'.frame with heq | heq
        · rw [heq, putFrame_frameBuffer, if_neg hne]
          exact hbuf
        · exact heq
    · rw [List.mem_singleton.mp hnew]
      refine ⟨hconf, .inl ?_⟩
      rw [hkey, hahead frame hle, if_pos rfl]
  · intro fi' hfi' g hge hg
    rw [eraseHistory_currentFrame] at hge
    have hat : g = frame ∨ e.ConfirmedAt g := by
      rcases List.mem_append.mp hfi' with hold | hnew
      · exact .inr (h.covered fi' hold g hge hg)
      · rw [List.mem_singleton.mp hnew, hkey] at hg
        rcases UInt32.lt_or_eq_of_le hg with hlt | heq
        · exact .inr (hpassed g hge hlt)
        · exact .inl heq
    by_cases hgf : g = frame
    · refine ⟨fi, ?_, hconf⟩
      rw [hahead g hge, if_pos hgf]
    · obtain ⟨fi₀, hbuf, hc⟩ := hat.resolve_left hgf
      refine ⟨fi₀, ?_, hc⟩
      rw [hahead g hge, if_neg hgf]
      exact hbuf
  · intro fi' hfi'
    rw [eraseHistory_currentFrame]
    rcases List.mem_append.mp hfi' with hold | hnew
    · exact h.reach fi' hold
    · rw [List.mem_singleton.mp hnew, hkey]
      exact ⟨hlast, hreach⟩
  · rw [List.map_append, List.pairwise_append]
    refine ⟨h.sorted, List.pairwise_singleton _ _, ?_⟩
    intro f hf f' hf'
    obtain ⟨fi', hfi', rfl⟩ := List.mem_map.mp hf
    rw [List.map_singleton, List.mem_singleton, hkey] at hf'
    subst hf'
    -- a later frame that was returned before would have this one confirmed
    rcases UInt32.lt_or_le fi'.frame f' with hlt | hge
    · exact hlt
    · exact absurd (h.covered fi' hfi' f' hle hge) hnot

/-! ## `TryAdvance` -/

theorem confirmedAt_iff : e.ConfirmedAt g ↔ (e.frameAt g).confirmed = true := by
  unfold ConfirmedAt frameAt
  cases hbuf : e.frameBuffer g with
  | none => simp
  | some fi => simp

theorem putFrame_putFrame (fi fi' : FrameInputs) :
    (e.putFrame frame fi).putFrame frame fi' = e.putFrame frame fi' := by
  unfold putFrame
  rw [Function.update_idem]

/-- The frame a pass works on. -/
theorem Recorded.frameAt (h : Recorded e returned) (frame : UInt32) :
    (e.frameAt frame).frame = frame ∧
      (e.currentFrame < frame → ∀ pid, (e.frameAt frame).playerInputs pid = none) := by
  unfold LockstepEngine.frameAt
  cases hbuf : e.frameBuffer frame with
  | none => exact ⟨rfl, fun _ _ => rfl⟩
  | some fi => exact ⟨h.keyed frame fi hbuf, h.later frame fi hbuf⟩

/-- What one pass does: it goes over a confirmed frame and changes nothing, it confirms one
that comes after all that were returned, or it stops. -/
theorem Recorded.checkPass {pass : Pass} (h : Recorded e returned) (hle : e.currentFrame ≤ frame)
    (hreach : frame.toNat ≤ e.currentFrame.toNat + 32)
    (hpassed : ∀ g, e.currentFrame ≤ g → g < frame → e.ConfirmedAt g)
    (hpass : e.checkPass frame = (e', pass)) :
    (pass = .skip ∧ e.ConfirmedAt frame ∧ e'.frameBuffer = e.frameBuffer ∧ Recorded e' returned) ∨
    (∃ fi, pass = .confirm fi ∧ ¬ e.ConfirmedAt frame ∧ fi.frame = frame ∧
      (frame.toNat + 1 < 2 ^ 32 → Recorded e' (returned ++ [fi]))) ∨
    (pass = .stop ∧ Recorded e' returned) := by
  obtain ⟨hkey, hlater⟩ := h.frameAt frame
  rcases checkPass_cases e frame with ⟨hc, heq⟩ | ⟨hc, fi, hfi, heq⟩ | ⟨hc, -, heq⟩
  · rw [heq] at hpass
    cases hpass
    obtain ⟨fi, hbuf, hfi⟩ := confirmedAt_iff.mpr hc
    have hsame : (e.putFrame frame (e.frameAt frame)).frameBuffer = e.frameBuffer := by
      unfold LockstepEngine.putFrame LockstepEngine.frameAt
      rw [hbuf]
      exact Function.update_eq_self_iff.mpr hbuf.symm
    exact .inl ⟨rfl, ⟨fi, hbuf, hfi⟩, hsame, h.congr rfl hsame rfl⟩
  · rw [heq] at hpass
    cases hpass
    have hnot : ¬ e.ConfirmedAt frame := by
      rw [confirmedAt_iff, hc]
      decide
    have hfi' : fi.frame = frame ∧ fi.confirmed = true ∧
        (e.currentFrame < frame → ∀ pid, fi.playerInputs pid = none) := by
      rcases hfi with ⟨-, rfl⟩ | ⟨⟨start, hstart, -⟩, rfl⟩
      · exact ⟨hkey, rfl, hlater⟩
      · -- only a started frame is filled up, and that is not beyond the current one
        have hge := h.started frame start hstart
        exact ⟨hkey, rfl, fun hlt => absurd hlt (UInt32.not_lt.mpr hge)⟩
    refine .inr (.inl ⟨fi, rfl, hnot, hfi'.1, fun hlast => ?_⟩)
    rw [putFrame_putFrame]
    exact h.confirm hle hreach hlast hnot hfi'.1 hfi'.2.1 hfi'.2.2 hpassed
  · rw [heq] at hpass
    cases hpass
    have hnot : ¬ e.ConfirmedAt frame := by
      rw [confirmedAt_iff, hc]
      decide
    exact .inr (.inr ⟨rfl, h.putFrame hle hnot hkey hc hlater⟩)

/-- The loop returns the frames from the current one on that were not returned before. -/
theorem Recorded.advanceLoop (fuel : ℕ) (h : Recorded e (returned ++ out))
    (hle : e.currentFrame ≤ frame)
    (hpassed : ∀ g, e.currentFrame ≤ g → g < frame → e.ConfirmedAt g)
    (hrun : advanceLoop fuel e frame out = some (e', out')) : Recorded e' (returned ++ out') := by
  induction fuel generalizing e frame out with
  | zero => cases hrun
  | succ fuel ih =>
    rw [LockstepEngine.advanceLoop] at hrun
    split_ifs at hrun with hcond
    · have hcondNat := UInt32.le_iff_toNat_le.mp hcond
      have hleNat := UInt32.le_iff_toNat_le.mp hle
      have hreach := toNat_reach e.currentFrame
      have hmax := frame.toNat_lt
      cases hpass : e.checkPass frame with
      | mk a pass =>
        obtain ⟨hcur, hact, -⟩ := checkPass_frame hpass
        rw [hpass] at hrun
        have hcases := h.checkPass hle (by omega) hpassed hpass
        by_cases hwrap : frame.toNat = 2 ^ 32 - 1
        · -- the last frame number is reached only from where the bound is the last one, too:
          -- with nobody active the loop does not end, and else it stops
          have hnot : ¬ e.ConfirmedAt frame := by
            rintro ⟨fi, hbuf, hc⟩
            have hlast := (h.reach fi (h.known frame fi hbuf hc)).1
            rw [h.keyed frame fi hbuf] at hlast
            omega
          have hlt : e.currentFrame < frame := by
            rw [UInt32.lt_iff_toNat_lt]
            omega
          rcases hcases with ⟨-, hconf, -⟩ | ⟨fi, rfl, -⟩ | ⟨rfl, hstop⟩
          · exact absurd hconf hnot
          · have hnotAt : (e.frameAt frame).confirmed = false := by
              rw [confirmedAt_iff] at hnot
              simpa using hnot
            dsimp only at hrun
            rw [advanceLoop_last fuel hcond hwrap hlt ((h.frameAt frame).2 hlt) h.started hnotAt
              hpass (by simp)] at hrun
            cases hrun
          · cases hrun
            exact hstop
        · have hsucc := toNat_succ hwrap
          have hle' : a.currentFrame ≤ frame + 1 := by
            rw [hcur, UInt32.le_iff_toNat_le, hsucc]
            omega
          have hsplit : ∀ g, g < frame + 1 → g < frame ∨ g = frame := by
            intro g hg
            rw [UInt32.lt_iff_toNat_lt, hsucc] at hg
            rcases Nat.lt_or_eq_of_le (Nat.le_of_lt_succ hg) with hlt | heq
            · exact .inl (UInt32.lt_iff_toNat_lt.mpr hlt)
            · exact .inr (UInt32.toNat_inj.mp heq)
          rcases hcases with ⟨rfl, hconf, hbuf, hrec⟩ | ⟨fi, rfl, -, hkey, hrec⟩ | ⟨rfl, hstop⟩
          · refine ih hrec hle' (fun g hge hg => ?_) hrun
            rw [hcur] at hge
            unfold ConfirmedAt at hpassed hconf ⊢
            rw [hbuf]
            rcases hsplit g hg with hlt | rfl
            · exact hpassed g hge hlt
            · exact hconf
          · have hrec := hrec (by omega)
            rw [List.append_assoc] at hrec
            refine ih hrec hle' (fun g hge hg => ?_) hrun
            have hmem : fi ∈ returned ++ (out ++ [fi]) := by simp
            refine hrec.covered fi hmem g hge ?_
            rw [hkey]
            rcases hsplit g hg with hlt | rfl
            · exact UInt32.le_of_lt hlt
            · exact UInt32.le_refl _
          · cases hrun
            exact hstop
    · cases hrun
      exact h

theorem Recorded.tryAdvance {fuel : ℕ} (h : Recorded e returned)
    (hrun : tryAdvance fuel e = some (e', out)) : Recorded e' (returned ++ out) := by
  refine Recorded.advanceLoop fuel (by rwa [List.append_nil]) (UInt32.le_refl _) ?_ hrun
  intro g hge hlt
  exact absurd hlt (UInt32.not_lt.mpr hge)

/-! ## The other operations -/

theorem Recorded.setCurrentFrame (h : Recorded e returned) (frame : UInt32) :
    Recorded (e.setCurrentFrame frame) returned := by
  unfold LockstepEngine.setCurrentFrame
  split_ifs with hlt
  · have hltNat := UInt32.lt_iff_toNat_lt.mp hlt
    refine ⟨fun g fi hbuf hg => ?_, fun g n hstart => ?_, h.keyed, h.known, fun fi hfi => ?_,
      fun fi hfi g hge hg => ?_, fun fi hfi => ?_, h.sorted⟩
    · exact h.later g fi hbuf (UInt32.lt_trans hlt hg)
    · by_cases hg : g = frame
      · exact hg ▸ UInt32.le_refl _
      · have hle := h.started g n (by simpa [Function.update_of_ne hg] using hstart)
        exact UInt32.le_of_lt (UInt32.lt_of_le_of_lt hle hlt)
    · obtain ⟨hc, hbuf | ⟨hbuf, hgone⟩⟩ := h.kept fi hfi
      · exact ⟨hc, .inl hbuf⟩
      · exact ⟨hc, .inr ⟨hbuf, UInt32.lt_trans hgone hlt⟩⟩
    · exact h.covered fi hfi g (UInt32.le_of_lt (UInt32.lt_of_lt_of_le hlt hge)) hg
    · obtain ⟨hlast, hreach⟩ := h.reach fi hfi
      change fi.frame.toNat + 1 < 2 ^ 32 ∧ fi.frame.toNat ≤ frame.toNat + 32
      exact ⟨hlast, by omega⟩
  · exact h

/-- An input may be written where the current frame is still open, or has it already. -/
def InputOk (e : LockstepEngine) (playerId : UInt64) (input : PlayerInput) : Prop :=
  playerId ∈ e.allPlayers → (e.frameAt e.currentFrame).confirmed = true →
    (e.frameAt e.currentFrame).playerInputs playerId = some input

instance (e : LockstepEngine) (playerId : UInt64) (input : PlayerInput) :
    Decidable (e.InputOk playerId input) := inferInstanceAs (Decidable (_ → _ → _ = _))

theorem submitInput_of_notMem {playerId : UInt64} {input : PlayerInput}
    (hmem : playerId ∉ e.allPlayers) : (e.submitInput playerId input).2 = e := by
  unfold LockstepEngine.submitInput
  rw [if_pos hmem]

theorem submitInput_of_mem {playerId : UInt64} (hmem : playerId ∈ e.allPlayers)
    (input : PlayerInput) :
    (e.submitInput playerId input).2.frameBuffer = (e.putFrame e.currentFrame
      { (e.frameAt e.currentFrame) with
        frame := e.currentFrame
        playerInputs := Function.update (e.frameAt e.currentFrame).playerInputs playerId
          (some input) }).frameBuffer := by
  unfold LockstepEngine.submitInput LockstepEngine.frameAt
  rw [if_neg (not_not.mpr hmem)]
  cases e.frameBuffer e.currentFrame with
  | none => rfl
  | some fi => rfl

theorem Recorded.submitInput {playerId : UInt64} {input : PlayerInput} (h : Recorded e returned)
    (hok : e.InputOk playerId input) : Recorded (e.submitInput playerId input).2 returned := by
  by_cases hmem : playerId ∈ e.allPlayers
  · have hbuf := submitInput_of_mem hmem input
    by_cases hc : (e.frameAt e.currentFrame).confirmed = true
    · -- the input is there, and writing it again changes nothing
      obtain ⟨fi, hfi, -⟩ := confirmedAt_iff.mpr hc
      have hat : e.frameAt e.currentFrame = fi := by
        unfold LockstepEngine.frameAt
        rw [hfi]
        rfl
      refine h.congr submitInput_currentFrame ?_ submitInput_frameStartCount
      rw [hbuf, Function.update_eq_self_iff.mpr (hok hmem hc).symm, hat]
      have hkey := h.keyed _ fi hfi
      unfold LockstepEngine.putFrame
      refine Function.update_eq_self_iff.mpr ?_
      rw [hfi]
      cases fi
      cases hkey
      rfl
    · have hput : Recorded (e.putFrame e.currentFrame
          { (e.frameAt e.currentFrame) with
            frame := e.currentFrame
            playerInputs := Function.update (e.frameAt e.currentFrame).playerInputs playerId
              (some input) }) returned :=
        h.putFrame (UInt32.le_refl _) (mt confirmedAt_iff.mp hc) rfl (by simpa using hc)
          fun hlt => absurd hlt (UInt32.lt_irrefl _)
      exact hput.congr submitInput_currentFrame hbuf submitInput_frameStartCount
  · rwa [submitInput_of_notMem hmem]

end LockstepEngine

/-! ## Runs -/

namespace EngineRun

open LockstepEngine

def next (s : EngineRun) : EngineOp → Option EngineRun
  | .setPlayers playerIds => some { s with engine := s.engine.setPlayers playerIds }
  | .submitInput playerId input => some { s with engine := (s.engine.submitInput playerId input).2 }
  | .playerDisconnected playerId => some { s with engine := s.engine.playerDisconnected playerId }
  | .playerReconnected playerId => some { s with engine := s.engine.playerReconnected playerId }
  | .tickFrameCounter => some { s with engine := s.engine.tickFrameCounter }
  | .setCurrentFrame frame => some { s with engine := s.engine.setCurrentFrame frame }
  | .tryAdvance fuel => (s.engine.tryAdvance fuel).map fun r =>
      { engine := r.1, returned := s.returned ++ r.2 }

/-- Frames are returned in order, each once, and what the buffer has of them is what was
returned. -/
structure Final (s : EngineRun) : Prop where
  sorted : (s.returned.map FrameInputs.frame).Pairwise (· < ·)
  unchanged : ∀ fi ∈ s.returned, ∀ fi', s.engine.frameBuffer fi.frame = some fi' → fi' = fi

/-- No input is written into a confirmed frame, but for one it has. -/
def LeavesConfirmed (s : EngineRun) : EngineOp → Prop
  | .submitInput playerId input => s.engine.InputOk playerId input
  | _ => True

variable {s s' : EngineRun} {op : EngineOp}

theorem final_of_recorded (h : s.engine.Recorded s.returned) : s.Final := by
  refine ⟨h.sorted, fun fi hfi fi' hbuf => ?_⟩
  obtain ⟨-, hkept | ⟨hgone, -⟩⟩ := h.kept fi hfi
  · rw [hkept] at hbuf
    exact (Option.some.inj hbuf).symm
  · rw [hgone] at hbuf
    cases hbuf

theorem recorded_next (h : s.engine.Recorded s.returned) (hok : s.LeavesConfirmed op)
    (hnext : next s op = some s') : s'.engine.Recorded s'.returned := by
  cases op with
  | submitInput playerId input =>
    cases hnext
    exact h.submitInput hok
  | setCurrentFrame frame =>
    cases hnext
    exact h.setCurrentFrame frame
  | tryAdvance fuel =>
    obtain ⟨r, hr, rfl⟩ := Option.map_eq_some_iff.mp hnext
    exact h.tryAdvance hr
  | playerReconnected playerId =>
    cases hnext
    unfold LockstepEngine.playerReconnected
    split_ifs
    · exact h.congr rfl rfl rfl
    · exact h
  | setPlayers | playerDisconnected | tickFrameCounter =>
    cases hnext
    exact h.congr rfl rfl rfl

/-- Another input in a confirmed frame is not what was returned. -/
theorem leavesConfirmed_of_final (h : s.engine.Recorded s.returned)
    (hnext : next s op = some s') (hfinal : s'.Final) : s.LeavesConfirmed op := by
  cases op with
  | submitInput playerId input =>
    cases hnext
    intro hmem hc
    obtain ⟨fi, hbuf, hfi⟩ := confirmedAt_iff.mpr hc
    have hkey := h.keyed _ fi hbuf
    have hwritten := congrFun (submitInput_of_mem hmem input) s.engine.currentFrame
    rw [putFrame_frameBuffer, if_pos rfl] at hwritten
    have hsame := hfinal.unchanged fi (h.known _ fi hbuf hfi) _ (by rw [hkey]; exact hwritten)
    have hat : s.engine.frameAt s.engine.currentFrame = fi := by
      unfold LockstepEngine.frameAt
      rw [hbuf]
      rfl
    have hinput := congrFun (congrArg FrameInputs.playerInputs hsame) playerId
    rw [hat]
    simpa using hinput.symm
  | _ => trivial

/-- What is returned is final in every run, if and only if no other input is written into a
confirmed frame. -/
theorem final_iff (timeoutFrames : UInt32) (ops : List EngineOp) :
    RunOk next LeavesConfirmed { engine := { timeoutFrames } } ops ↔
      ∀ ms s, ms <+: ops → run next { engine := { timeoutFrames } } ms = some s → s.Final :=
  runOk_iff_of_implies (fun _ op _ => by cases op <;> trivial)
    (fun _ h => final_of_recorded h) (fun _ _ _ h hok hnext => recorded_next h hok hnext)
    (fun _ _ _ h hnext hfinal => leavesConfirmed_of_final h hnext hfinal)
    (recorded_new timeoutFrames)

/-- Two players send their inputs, the frame is confirmed, and one sends another. -/
def secondThoughts : List EngineOp :=
  [.setPlayers [1, 2], .submitInput 1 { playerId := 1, inputSeq := 1, hasInput := true },
    .submitInput 2 { playerId := 2, inputSeq := 1, hasInput := true }, .tryAdvance 34,
    .submitInput 1 { playerId := 1, inputSeq := 2, skillSlot := 0, hasInput := true }]

theorem secondThoughts_not_final :
    ¬ ∀ (timeoutFrames : UInt32) (ops : List EngineOp) (s : EngineRun),
      run next { engine := { timeoutFrames } } ops = some s → s.Final := by
  intro h
  have hrun : (run next { engine := { timeoutFrames := 12 } } secondThoughts).map (fun s =>
      (s.returned.map fun fi => (fi.frame, fi.playerInputs 1),
        (s.engine.frameBuffer 0).bind fun fi => fi.playerInputs 1)) =
      some ([(0, some { playerId := 1, inputSeq := 1, hasInput := true })],
        some { playerId := 1, inputSeq := 2, skillSlot := 0, hasInput := true }) := by
    decide
  obtain ⟨s, hs, heq⟩ := Option.map_eq_some_iff.mp hrun
  obtain ⟨hret, hbuf⟩ := Prod.mk.inj heq
  obtain ⟨fi, hfi, hpair⟩ := List.map_eq_singleton_iff.mp hret
  obtain ⟨hframe, hfirst⟩ := Prod.mk.inj hpair
  obtain ⟨fi', hat, hsecond⟩ := Option.bind_eq_some_iff.mp hbuf
  have hsame := (h 12 secondThoughts s hs).unchanged fi (by rw [hfi]; exact List.mem_singleton_self fi)
    fi' (by rw [hframe]; exact hat)
  rw [hsame, hfirst] at hsecond
  revert hsecond
  decide

end EngineRun

end Gmaker.Realtime
