import Gmaker.Realtime.BattleRoom
import Gmaker.Realtime.Finality
import Mathlib.Data.Set.Card

/-!
# Gmaker.Realtime.History — how much the engine keeps

When a frame is confirmed, the one `kHistorySize` before it is forgotten. Nothing else is
ever forgotten: a frame that the engine moves past without confirming it leaves the earlier
one where it is. The engine of a room keeps to its history in every run in which each tick
of the battle confirms its frame (`withinHistory_of_confirmsFrame`); with a player that is
active and a timeout, no tick does, and the buffers grow by a frame a tick (`Stalled.ticks`).
-/

namespace Gmaker.Realtime

open Gmaker.Lib

namespace LockstepEngine

variable {e e' : LockstepEngine} {out out' : List FrameInputs} {fi : FrameInputs}
  {frame g : UInt32} {last : ℕ}

/-- How many frames beyond the current one `TryAdvance` looks at. -/
def lookAhead : ℕ := 32

/-- The buffers hold no more than the history and what lies ahead. -/
def WithinHistory (e : LockstepEngine) : Prop :=
  Set.ncard {g | e.frameBuffer g ≠ none} ≤ historySize.toNat + lookAhead ∧
    Set.ncard {g | e.frameStartCount g ≠ none} ≤ historySize.toNat + lookAhead

/-! ## The window -/

/-- The engine's frames up to `last`: what is behind the history is forgotten, but for frame
0, which is never the one that falls out; what is confirmed is not beyond `last`, and from the
current frame on to `last` all is confirmed. -/
structure Window (e : LockstepEngine) (last : ℕ) : Prop where
  base : 300 ≤ last
  ahead : last ≤ 300 ∨ last ≤ e.currentFrame.toNat + 32
  bound : last + 1 < 2 ^ 32
  held : ∀ g fi, e.frameBuffer g = some fi → g = 0 ∨ last < g.toNat + 300 ∧ g.toNat ≤ last + 1
  recent : ∀ g n, e.frameStartCount g = some n → last < g.toNat + 300 ∧ g ≤ e.currentFrame
  done : 300 < last → ∀ g, e.currentFrame ≤ g → g.toNat ≤ last → e.ConfirmedAt g
  undone : ∀ g, e.ConfirmedAt g → g.toNat ≤ last
  later : ∀ g fi, e.frameBuffer g = some fi → e.currentFrame < g → ∀ pid, fi.playerInputs pid = none

/-- Numbers in the window, and 0. -/
theorem ncard_window (last : ℕ) {s : Set UInt32} (hs : ∀ g ∈ s, g = 0 ∨ last < g.toNat + 300 ∧ g.toNat ≤ last + 1) :
    s.ncard ≤ 302 := by
  have hsub : UInt32.toNat '' s ⊆ ↑(insert 0 (Finset.Ioc (last - 300) (last + 1))) := by
    rintro _ ⟨g, hg, rfl⟩
    rw [Finset.coe_insert, Set.mem_insert_iff, Finset.mem_coe, Finset.mem_Ioc]
    rcases hs g hg with rfl | ⟨hlow, hhigh⟩
    · exact .inl rfl
    · omega
  have hinj : Function.Injective UInt32.toNat := fun a b h => UInt32.toNat_inj.mp h
  calc s.ncard = (UInt32.toNat '' s).ncard := (Set.ncard_image_of_injective s hinj).symm
    _ ≤ (insert 0 (Finset.Ioc (last - 300) (last + 1))).card := by
      rw [← Set.ncard_coe_finset]
      exact Set.ncard_le_ncard hsub (Finset.finite_toSet _)
    _ ≤ (Finset.Ioc (last - 300) (last + 1)).card + 1 := Finset.card_insert_le _ _
    _ ≤ 302 := by
      rw [Nat.card_Ioc]
      omega

theorem Window.withinHistory (h : Window e last) (hcur : e.currentFrame.toNat ≤ last) :
    e.WithinHistory := by
  have hsize : historySize.toNat + lookAhead = 332 := rfl
  unfold WithinHistory
  rw [hsize]
  constructor
  · refine (ncard_window last fun g hg => ?_).trans (by norm_num)
    obtain ⟨fi, hbuf⟩ := Option.ne_none_iff_exists'.mp hg
    exact h.held g fi hbuf
  · refine (ncard_window last fun g hg => ?_).trans (by norm_num)
    obtain ⟨n, hstart⟩ := Option.ne_none_iff_exists'.mp hg
    obtain ⟨hlow, hle⟩ := h.recent g n hstart
    have hleNat := UInt32.le_iff_toNat_le.mp hle
    exact .inr ⟨hlow, by omega⟩

/-- Only the frames count. -/
theorem Window.congr (h : Window e last) (hcur : e'.currentFrame = e.currentFrame)
    (hbuf : e'.frameBuffer = e.frameBuffer) (hstart : e'.frameStartCount = e.frameStartCount) :
    Window e' last := by
  obtain ⟨base, ahead, bound, held, recent, done, undone, later⟩ := h
  constructor
  case base => exact base
  case ahead => exact hcur ▸ ahead
  case bound => exact bound
  all_goals
    simp only [ConfirmedAt, hcur, hbuf, hstart] at *
    assumption

/-- From the current frame on, frames are not behind the window. -/
theorem Window.mem_of_le (h : Window e last) (hle : e.currentFrame ≤ g) :
    g = 0 ∨ last < g.toNat + 300 := by
  have hleNat := UInt32.le_iff_toNat_le.mp hle
  have hahead := h.ahead
  rcases Nat.eq_zero_or_pos g.toNat with hzero | hpos
  · exact .inl (UInt32.toNat_inj.mp hzero)
  · exact .inr (by omega)

/-- A frame of the window is written, and is confirmed then if it was before. -/
theorem Window.putFrame (h : Window e last) (hle : e.currentFrame ≤ frame)
    (hnext : frame.toNat ≤ last + 1)
    (hsame : fi.confirmed = true ↔ e.ConfirmedAt frame)
    (hlater : e.currentFrame < frame → ∀ pid, fi.playerInputs pid = none) :
    Window (e.putFrame frame fi) last := by
  have hconf : ∀ g, (e.putFrame frame fi).ConfirmedAt g ↔ e.ConfirmedAt g := by
    intro g
    unfold ConfirmedAt
    rw [putFrame_frameBuffer]
    split_ifs with hg
    · subst hg
      change _ ↔ e.ConfirmedAt g
      rw [← hsame]
      simp
    · rfl
  refine ⟨h.base, h.ahead, h.bound, fun g fi' hbuf => ?_, h.recent, fun hlast g hge hg => ?_,
    fun g hg => h.undone g ((hconf g).mp hg), fun g fi' hbuf hlt => ?_⟩
  · rw [putFrame_frameBuffer] at hbuf
    split_ifs at hbuf with hg
    · have hin := h.mem_of_le hle
      exact hg ▸ hin.imp_right fun hlow => ⟨hlow, hnext⟩
    · exact h.held g fi' hbuf
  · exact (hconf g).mpr (h.done hlast g hge hg)
  · rw [putFrame_frameBuffer] at hbuf
    split_ifs at hbuf with hg
    · cases hbuf
      exact hlater (hg ▸ hlt)
    · exact h.later g fi' hbuf hlt

/-- Confirming a frame, with what falls out of the history, from the current frame on. -/
theorem confirmedAt_eraseHistory (hreach : frame.toNat ≤ e.currentFrame.toNat + 32)
    (hconf : fi.confirmed = true) (hge : e.currentFrame ≤ g) :
    ((e.putFrame frame fi).eraseHistory frame).ConfirmedAt g ↔ g = frame ∨ e.ConfirmedAt g := by
  unfold ConfirmedAt
  rw [eraseHistory_frameBuffer_of_le (e := e.putFrame frame fi) hreach hge, putFrame_frameBuffer]
  split_ifs with hgf
  · simp [hgf, hconf]
  · simp [hgf]

/-- The next frame is confirmed, and the window moves on if it is full. -/
theorem Window.confirm (h : Window e last) (hle : e.currentFrame ≤ frame)
    (hreach : frame.toNat ≤ e.currentFrame.toNat + 32) (hnext : frame.toNat ≤ last + 1)
    (hlast : frame.toNat + 1 < 2 ^ 32) (hnot : ¬ e.ConfirmedAt frame)
    (hconf : fi.confirmed = true)
    (hlater : e.currentFrame < frame → ∀ pid, fi.playerInputs pid = none)
    (hpassed : ∀ g, e.currentFrame ≤ g → g < frame → e.ConfirmedAt g) :
    Window ((e.putFrame frame fi).eraseHistory frame) (max last frame.toNat) := by
  have hsize : historySize.toNat = 300 := rfl
  have hbase := h.base
  have hleNat := UInt32.le_iff_toNat_le.mp hle
  -- with a window that has moved on, the frame is the one after it
  have hnew : 300 < last → frame.toNat = last + 1 := by
    intro hmoved
    by_contra hne
    exact hnot (h.done hmoved frame hle (by omega))
  have hmem : ∀ g fi', ((e.putFrame frame fi).eraseHistory frame).frameBuffer g = some fi' →
      g = frame ∧ fi' = fi ∨ g ≠ frame ∧ e.frameBuffer g = some fi' := by
    intro g fi' hbuf
    have hbuf := frameBuffer_of_eraseHistory hbuf
    rw [putFrame_frameBuffer] at hbuf
    split_ifs at hbuf with hg
    · cases hbuf
      exact .inl ⟨hg, rfl⟩
    · exact .inr ⟨hg, hbuf⟩
  have hgone : 300 < frame.toNat → ∀ g, g.toNat + 300 = frame.toNat →
      ((e.putFrame frame fi).eraseHistory frame).frameBuffer g = none ∧
        ((e.putFrame frame fi).eraseHistory frame).frameStartCount g = none := by
    intro hlt g hg
    have hold : g = frame - historySize := by
      rw [← UInt32.toNat_inj, UInt32.toNat_sub_of_le _ _ (UInt32.le_iff_toNat_le.mpr (by omega))]
      omega
    have hsizeLt : historySize < frame := UInt32.lt_iff_toNat_lt.mpr (by omega)
    unfold eraseHistory
    rw [if_pos hsizeLt, hold]
    exact ⟨Function.update_self .., Function.update_self ..⟩
  have hbound := h.bound
  refine ⟨by omega, ?_, by omega, fun g fi' hbuf => ?_, fun g n hstart => ?_,
    fun hmoved g hge hg => ?_, fun g hg => ?_, fun g fi' hbuf hlt => ?_⟩
  · rw [eraseHistory_currentFrame, putFrame_currentFrame]
    rcases h.ahead with hbehind | hahead' <;> omega
  · rcases hmem g fi' hbuf with ⟨rfl, -⟩ | ⟨-, hold⟩
    · exact (h.mem_of_le hle).imp_right fun hlow => ⟨by omega, by omega⟩
    · have hne : 300 < frame.toNat → g.toNat + 300 ≠ frame.toNat := by
        intro hlt heq
        rw [(hgone hlt g heq).1] at hbuf
        cases hbuf
      rcases h.held g fi' hold with hzero | ⟨hlow, hhigh⟩
      · exact .inl hzero
      · exact .inr ⟨by omega, by omega⟩
  · have hold : (e.putFrame frame fi).frameStartCount g = some n :=
      frameStartCount_of_eraseHistory hstart
    obtain ⟨hlow, hgcur⟩ := h.recent g n hold
    have hne : 300 < frame.toNat → g.toNat + 300 ≠ frame.toNat := by
      intro hlt heq
      rw [(hgone hlt g heq).2] at hstart
      cases hstart
    rw [eraseHistory_currentFrame]
    exact ⟨by omega, hgcur⟩
  · rw [eraseHistory_currentFrame] at hge
    refine (confirmedAt_eraseHistory hreach hconf hge).mpr ?_
    rcases UInt32.lt_or_le g frame with hlt | hfg
    · exact .inr (hpassed g hge hlt)
    · have hfgNat := UInt32.le_iff_toNat_le.mp hfg
      by_cases hgf : g = frame
      · exact .inl hgf
      · have hgfNat := mt UInt32.toNat_inj.mp hgf
        exact .inr (h.done (by omega) g hge (by omega))
  · obtain ⟨fi', hbuf, hc⟩ := hg
    rcases hmem g fi' hbuf with ⟨rfl, -⟩ | ⟨-, hold⟩
    · exact le_max_right _ _
    · exact (h.undone g ⟨fi', hold, hc⟩).trans (le_max_left _ _)
  · rw [eraseHistory_currentFrame] at hlt
    rcases hmem g fi' hbuf with ⟨rfl, rfl⟩ | ⟨-, hold⟩
    · exact hlater hlt
    · exact h.later g fi' hold hlt

/-! ## `TryAdvance` -/

/-- The frame a pass works on. -/
theorem Window.frameAt (h : Window e last) (frame : UInt32) :
    e.currentFrame < frame → ∀ pid, (e.frameAt frame).playerInputs pid = none := by
  unfold LockstepEngine.frameAt
  cases hbuf : e.frameBuffer frame with
  | none => exact fun _ _ => rfl
  | some fi => exact h.later frame fi hbuf

/-- A pass that stops leaves a frame that is not confirmed. -/
theorem Window.checkPass_stop (h : Window e last) (hle : e.currentFrame ≤ frame)
    (hnext : frame.toNat ≤ last + 1) (hpass : e.checkPass frame = (e', .stop)) :
    Window e' last := by
  rcases checkPass_cases e frame with ⟨-, heq⟩ | ⟨-, fi, -, heq⟩ | ⟨-, -, heq⟩
  · rw [heq] at hpass
    cases hpass
  · rw [heq] at hpass
    cases hpass
  · rw [heq] at hpass
    cases hpass
    exact h.putFrame hle hnext confirmedAt_iff.symm (h.frameAt frame)

/-- After a pass that goes on, the frame is confirmed and in the window. -/
theorem Window.checkPass {pass : Pass} (h : Window e last) (hle : e.currentFrame ≤ frame)
    (hreach : frame.toNat ≤ e.currentFrame.toNat + 32) (hnext : frame.toNat ≤ last + 1)
    (hlast : frame.toNat + 1 < 2 ^ 32)
    (hpassed : ∀ g, e.currentFrame ≤ g → g < frame → e.ConfirmedAt g)
    (hpass : e.checkPass frame = (e', pass)) (hgoes : pass ≠ .stop) :
    ∃ last', last ≤ last' ∧ frame.toNat ≤ last' ∧ Window e' last' ∧
      ∀ g, e.currentFrame ≤ g → g ≤ frame → e'.ConfirmedAt g := by
  have hsplit : ∀ g, e.currentFrame ≤ g → g ≤ frame → g = frame ∨ e.ConfirmedAt g := by
    intro g hge hg
    rcases UInt32.lt_or_eq_of_le hg with hlt | heq
    · exact .inr (hpassed g hge hlt)
    · exact .inl heq
  rcases checkPass_cases e frame with ⟨hc, heq⟩ | ⟨hc, fi, hfi, heq⟩ | ⟨-, -, heq⟩
  · rw [heq] at hpass
    cases hpass
    have hconf := confirmedAt_iff.mpr hc
    refine ⟨last, le_rfl, h.undone frame hconf,
      h.putFrame hle hnext confirmedAt_iff.symm (h.frameAt frame), fun g hge hg => ?_⟩
    unfold ConfirmedAt
    rw [putFrame_frameBuffer]
    split_ifs with hgf
    · exact ⟨_, rfl, hc⟩
    · exact (hsplit g hge hg).resolve_left hgf
  · rw [heq] at hpass
    cases hpass
    have hnot : ¬ e.ConfirmedAt frame := by
      rw [confirmedAt_iff, hc]
      decide
    have hfi' : fi.confirmed = true ∧
        (e.currentFrame < frame → ∀ pid, fi.playerInputs pid = none) := by
      rcases hfi with ⟨-, rfl⟩ | ⟨⟨start, hstart, -⟩, rfl⟩
      · exact ⟨rfl, h.frameAt frame⟩
      · -- only a started frame is filled up, and that is not beyond the current one
        have hge := (h.recent frame start hstart).2
        exact ⟨rfl, fun hlt => absurd hlt (UInt32.not_lt.mpr hge)⟩
    rw [putFrame_putFrame]
    refine ⟨max last frame.toNat, le_max_left _ _, le_max_right _ _,
      h.confirm hle hreach hnext hlast hnot hfi'.1 hfi'.2 hpassed, fun g hge hg => ?_⟩
    exact (confirmedAt_eraseHistory hreach hfi'.1 hge).mpr (hsplit g hge hg)
  · rw [heq] at hpass
    cases hpass
    exact absurd rfl hgoes

/-- The loop keeps to the window. -/
theorem Window.advanceLoop (fuel : ℕ) (h : Window e last) (hle : e.currentFrame ≤ frame)
    (hnext : frame.toNat ≤ last + 1)
    (hpassed : ∀ g, e.currentFrame ≤ g → g < frame → e.ConfirmedAt g)
    (hrun : advanceLoop fuel e frame out = some (e', out')) :
    ∃ last', last ≤ last' ∧ Window e' last' ∧ e'.currentFrame = e.currentFrame ∧
      (frame ≤ e.currentFrame + 32 → (e.checkPass frame).2 ≠ .stop → frame.toNat ≤ last') := by
  induction fuel generalizing e frame out last with
  | zero => cases hrun
  | succ fuel ih =>
    rw [LockstepEngine.advanceLoop] at hrun
    split_ifs at hrun with hcond
    · have hcondNat := UInt32.le_iff_toNat_le.mp hcond
      have hleNat := UInt32.le_iff_toNat_le.mp hle
      have hreach := toNat_reach e.currentFrame
      have hmax := frame.toNat_lt
      have hbound := h.bound
      cases hpass : e.checkPass frame with
      | mk a pass =>
        rw [hpass] at hrun
        have hgo : ∀ next, pass ≠ .stop → advanceLoop fuel a (frame + 1) next = some (e', out') →
            ∃ last', last ≤ last' ∧ Window e' last' ∧ e'.currentFrame = e.currentFrame ∧
              (frame ≤ e.currentFrame + 32 → pass ≠ .stop → frame.toNat ≤ last') := by
          intro next hgoes hrun
          by_cases hwrap : frame.toNat = 2 ^ 32 - 1
          · -- the window ends before the last frame number, which is not confirmed then
            have hnot : (e.frameAt frame).confirmed = false := by
              by_contra hc
              have hle' := h.undone frame (confirmedAt_iff.mpr (by simpa using hc))
              omega
            have hlt : e.currentFrame < frame := by
              rw [UInt32.lt_iff_toNat_lt]
              omega
            rw [advanceLoop_last fuel hcond hwrap hlt (h.frameAt frame hlt)
              (fun g n hn => (h.recent g n hn).2) hnot hpass hgoes] at hrun
            cases hrun
          · have hsucc := toNat_succ hwrap
            obtain ⟨last', hlast', hframe, ha, hconf⟩ :=
              h.checkPass hle (by omega) hnext (by omega) hpassed hpass hgoes
            have hcur := (checkPass_frame hpass).1
            have hle' : a.currentFrame ≤ frame + 1 := by
              rw [hcur, UInt32.le_iff_toNat_le, hsucc]
              omega
            have hpassed' : ∀ g, a.currentFrame ≤ g → g < frame + 1 → a.ConfirmedAt g := by
              intro g hge hg
              rw [UInt32.lt_iff_toNat_lt, hsucc] at hg
              rw [hcur] at hge
              exact hconf g hge (UInt32.le_iff_toNat_le.mpr (Nat.le_of_lt_succ hg))
            obtain ⟨last'', hlast'', he', hcur', -⟩ := ih ha hle' (by omega) hpassed' hrun
            exact ⟨last'', hlast'.trans hlast'', he', hcur'.trans hcur,
              fun _ _ => hframe.trans hlast''⟩
        cases pass with
        | stop =>
          cases hrun
          exact ⟨last, le_rfl, h.checkPass_stop hle hnext hpass, (checkPass_frame hpass).1,
            fun _ hgoes => absurd rfl hgoes⟩
        | skip => exact hgo out (by simp) hrun
        | confirm fi => exact hgo (out ++ [fi]) (by simp) hrun
    · cases hrun
      exact ⟨last, le_rfl, h, rfl, fun hle' => absurd hle' hcond⟩

/-! ## One tick after the other -/

/-- The battle has not begun: the only frame there may be is the first one. -/
structure Unstarted (e : LockstepEngine) : Prop where
  zero : e.currentFrame = 0
  onlyZero : ∀ g fi, e.frameBuffer g = some fi → g = 0
  notStarted : ∀ g, e.frameStartCount g = none

/-- The frame that a tick moves on to is confirmed by it: it has been confirmed before, or
nothing keeps it from being confirmed without inputs. The frames of the first history need
not be, since nothing falls out of it. -/
def ConfirmsAt (e : LockstepEngine) (frame : UInt32) : Prop :=
  frame ≤ historySize ∨ (e.frameAt frame).confirmed = true ∨
    frame.toNat + 32 < 2 ^ 32 ∧ (e.activePlayers = ∅ ∨ e.timeoutFrames = 0)

instance (e : LockstepEngine) (frame : UInt32) : Decidable (e.ConfirmsAt frame) :=
  inferInstanceAs (Decidable (_ ∨ _ ∨ _ ∧ _))

/-- The engine between two ticks. -/
def Kept (e : LockstepEngine) : Prop := ∃ last, e.Window last ∧ e.currentFrame.toNat ≤ last

theorem Unstarted.window (h : Unstarted e) : Window e 300 := by
  refine ⟨le_rfl, .inl le_rfl, by norm_num, fun g fi hbuf => .inl (h.onlyZero g fi hbuf),
    fun g n hstart => ?_, fun hlt => absurd hlt (lt_irrefl _), fun g hg => ?_,
    fun g fi hbuf hlt => ?_⟩
  · rw [h.notStarted g] at hstart
    cases hstart
  · obtain ⟨fi, hbuf, -⟩ := hg
    rw [h.onlyZero g fi hbuf]
    exact Nat.zero_le _
  · rw [h.onlyZero g fi hbuf, h.zero] at hlt
    exact absurd hlt (UInt32.lt_irrefl _)

theorem Unstarted.kept (h : Unstarted e) : Kept e := by
  refine ⟨300, h.window, ?_⟩
  rw [h.zero]
  exact Nat.zero_le _

theorem setCurrentFrame_of_lt (hlt : e.currentFrame < frame) : e.setCurrentFrame frame =
    { e with
      currentFrame := frame
      frameStartCount := Function.update e.frameStartCount frame (some e.frameCounter) } :=
  if_pos hlt

/-- The battle begins at a frame beyond the first history: the window ends right before it. -/
theorem Unstarted.setCurrentFrame (h : Unstarted e) (hlt : 300 < frame.toNat) :
    Window (e.setCurrentFrame frame) (frame.toNat - 1) := by
  have hcur : e.currentFrame < frame := by
    rw [h.zero, UInt32.lt_iff_toNat_lt]
    exact Nat.lt_of_le_of_lt (Nat.zero_le _) hlt
  have hmax := frame.toNat_lt
  have honly : ∀ g fi, e.frameBuffer g = some fi → frame ≤ g → False := by
    intro g fi hbuf hle
    rw [h.onlyZero g fi hbuf, UInt32.le_iff_toNat_le] at hle
    exact absurd hle (by simp; omega)
  rw [setCurrentFrame_of_lt hcur]
  refine ⟨by omega, .inr (by simp; omega), by omega, fun g fi hbuf => .inl (h.onlyZero g fi hbuf),
    fun g n hstart => ?_, fun _ g hge hg => ?_, fun g hg => ?_, fun g fi hbuf hge => ?_⟩
  · by_cases hg : g = frame
    · subst hg
      exact ⟨by omega, UInt32.le_refl _⟩
    · simp [Function.update_of_ne hg, h.notStarted] at hstart
  · have hgeNat := UInt32.le_iff_toNat_le.mp hge
    simp only at hgeNat
    omega
  · obtain ⟨fi, hbuf, -⟩ := hg
    rw [h.onlyZero g fi hbuf]
    exact Nat.zero_le _
  · exact absurd (UInt32.le_of_lt hge) (honly g fi hbuf)

/-- The current frame moves on within the window, or to the frame after it. -/
theorem Window.setCurrentFrame (h : Window e last) (hlt : e.currentFrame < frame)
    (hcur : frame.toNat ≤ last + 1) : Window (e.setCurrentFrame frame) last := by
  have hltNat := UInt32.lt_iff_toNat_lt.mp hlt
  have hahead := h.ahead
  rw [setCurrentFrame_of_lt hlt]
  refine ⟨h.base, ?_, h.bound, h.held, fun g n hstart => ?_,
    fun hmoved g hge hg => h.done hmoved g (UInt32.le_of_lt (UInt32.lt_of_lt_of_le hlt hge)) hg,
    h.undone, fun g fi hbuf hg => h.later g fi hbuf (UInt32.lt_trans hlt hg)⟩
  · simp only
    omega
  · by_cases hg : g = frame
    · subst hg
      exact ⟨by omega, UInt32.le_refl _⟩
    · have hold : e.frameStartCount g = some n := by
        simpa [Function.update_of_ne hg] using hstart
      obtain ⟨hlow, hle⟩ := h.recent g n hold
      exact ⟨hlow, UInt32.le_of_lt (UInt32.lt_of_le_of_lt hle hlt)⟩

/-- A pass does not stop where nobody is waited for. -/
theorem checkPass_ne_stop
    (h : e.activePlayers = ∅ ∨ e.timeoutFrames = 0 ∧ ∃ start, e.frameStartCount frame = some start) :
    (e.checkPass frame).2 ≠ .stop := by
  intro hstop
  rcases checkPass_cases e frame with ⟨-, heq⟩ | ⟨-, fi, -, heq⟩ | ⟨-, ⟨hnot, hwait⟩, -⟩
  · rw [heq] at hstop
    cases hstop
  · rw [heq] at hstop
    cases hstop
  · rcases h with hnobody | ⟨htime, start, hstart⟩
    · exact hnot fun pid hpid => by simp [hnobody] at hpid
    · refine hwait start hstart ?_
      rw [htime]
      exact UInt32.zero_le

theorem Kept.tick {fuel : ℕ} (h : Kept e) (hnumber : frame.toNat = e.currentFrame.toNat + 1 ∨ Unstarted e)
    (hok : e.currentFrame < frame → e.ConfirmsAt frame)
    (hrun : tryAdvance fuel (e.setCurrentFrame frame) = some (e', out)) :
    Kept e' ∧ e'.currentFrame = frame := by
  have hvacuous : ∀ (e : LockstepEngine) g, e.currentFrame ≤ g → g < e.currentFrame →
      e.ConfirmedAt g := fun e g hge hlt => absurd hlt (UInt32.not_lt.mpr hge)
  by_cases hlt : e.currentFrame < frame
  · have hcur : (e.setCurrentFrame frame).currentFrame = frame := by rw [setCurrentFrame_of_lt hlt]
    obtain ⟨last, hwin, hnext⟩ : ∃ last, Window (e.setCurrentFrame frame) last ∧
        frame.toNat ≤ last + 1 := by
      rcases hnumber with hnumber | hunstarted
      · obtain ⟨last, hwin, hle⟩ := h
        exact ⟨last, hwin.setCurrentFrame hlt (by omega), by omega⟩
      · rcases Nat.lt_or_ge 300 frame.toNat with hmore | hfew
        · exact ⟨frame.toNat - 1, hunstarted.setCurrentFrame hmore, by omega⟩
        · exact ⟨300, hunstarted.window.setCurrentFrame hlt (by omega), by omega⟩
    unfold LockstepEngine.tryAdvance at hrun
    obtain ⟨last', hlast', hwin', hcur', hgo⟩ := hwin.advanceLoop fuel (UInt32.le_refl _)
      (by rw [hcur]; exact hnext) (hvacuous _) hrun
    rw [hcur] at hgo hcur'
    refine ⟨⟨last', hwin', ?_⟩, hcur'⟩
    rw [hcur']
    -- the frame is in the window already, or it is the next one and is confirmed now
    rcases hok hlt with hfirst | hconf | ⟨hwrap, hfree⟩
    · have hfirstNat : frame.toNat ≤ 300 := UInt32.le_iff_toNat_le.mp hfirst
      have hbase := hwin'.base
      omega
    · have hconf' : (e.setCurrentFrame frame).ConfirmedAt frame := by
        rw [confirmedAt_iff, setCurrentFrame_of_lt hlt]
        exact hconf
      exact (hwin.undone frame hconf').trans hlast'
    · refine hgo ?_ (checkPass_ne_stop ?_)
      · have hreach := toNat_reach frame
        rw [UInt32.le_iff_toNat_le]
        omega
      · rw [setCurrentFrame_of_lt hlt]
        exact hfree.imp_right fun htime => ⟨htime, e.frameCounter, Function.update_self ..⟩
  · rcases hnumber with hnumber | hunstarted
    · refine absurd (UInt32.lt_iff_toNat_lt.mpr ?_) hlt
      omega
    · obtain ⟨last, hwin, hle⟩ := h
      rw [LockstepEngine.setCurrentFrame, if_neg hlt] at hrun
      obtain ⟨last', hlast', hwin', hcur', -⟩ := hwin.advanceLoop fuel (UInt32.le_refl _)
        (by omega) (hvacuous e) hrun
      have hframe : frame = e.currentFrame := by
        rw [hunstarted.zero] at hlt ⊢
        exact UInt32.le_antisymm (UInt32.not_lt.mp hlt) UInt32.zero_le
      exact ⟨⟨last', hwin', by rw [hcur']; omega⟩, hcur'.trans hframe.symm⟩

theorem Kept.congr (h : Kept e) (hcur : e'.currentFrame = e.currentFrame)
    (hbuf : e'.frameBuffer = e.frameBuffer) (hstart : e'.frameStartCount = e.frameStartCount) :
    Kept e' := by
  obtain ⟨last, hwin, hle⟩ := h
  exact ⟨last, hwin.congr hcur hbuf hstart, hcur ▸ hle⟩

theorem Unstarted.congr (h : Unstarted e) (hcur : e'.currentFrame = e.currentFrame)
    (hbuf : e'.frameBuffer = e.frameBuffer) (hstart : e'.frameStartCount = e.frameStartCount) :
    Unstarted e' := by
  refine ⟨hcur.trans h.zero, ?_, ?_⟩
  · rw [hbuf]
    exact h.onlyZero
  · rw [hstart]
    exact h.notStarted

/-- What is submitted goes into the current frame. -/
theorem Kept.submitInput (h : Kept e) (playerId : UInt64) (input : PlayerInput) :
    Kept (e.submitInput playerId input).2 := by
  by_cases hmem : playerId ∈ e.allPlayers
  · obtain ⟨last, hwin, hle⟩ := h
    have hput : Window (e.putFrame e.currentFrame
        { e.frameAt e.currentFrame with
          frame := e.currentFrame
          playerInputs := Function.update (e.frameAt e.currentFrame).playerInputs playerId
            (some input) }) last :=
      hwin.putFrame (UInt32.le_refl _) (by omega) confirmedAt_iff.symm
        fun hlt => absurd hlt (UInt32.lt_irrefl _)
    refine ⟨last, hput.congr submitInput_currentFrame (submitInput_of_mem hmem input)
      submitInput_frameStartCount, ?_⟩
    rw [submitInput_currentFrame]
    exact hle
  · rwa [submitInput_of_notMem hmem]

theorem Unstarted.submitInput (h : Unstarted e) (playerId : UInt64) (input : PlayerInput) :
    Unstarted (e.submitInput playerId input).2 := by
  by_cases hmem : playerId ∈ e.allPlayers
  · have hput : Unstarted (e.putFrame e.currentFrame
        { e.frameAt e.currentFrame with
          frame := e.currentFrame
          playerInputs := Function.update (e.frameAt e.currentFrame).playerInputs playerId
            (some input) }) := by
      refine ⟨h.zero, fun g fi hbuf => ?_, h.notStarted⟩
      rw [putFrame_frameBuffer] at hbuf
      split_ifs at hbuf with hg
      · exact hg.trans h.zero
      · exact h.onlyZero g fi hbuf
    exact hput.congr submitInput_currentFrame (submitInput_of_mem hmem input)
      submitInput_frameStartCount
  · rwa [submitInput_of_notMem hmem]

/-- A pass stops at a frame that has to wait for a player. -/
theorem checkPass_waits {pid : UInt64} (hnot : (e.frameAt frame).confirmed = false)
    (hpid : pid ∈ e.activePlayers) (hnone : (e.frameAt frame).playerInputs pid = none)
    (hwait : ∀ start, e.frameStartCount frame = some start →
      ¬ e.timeoutFrames ≤ e.frameCounter - start) :
    e.checkPass frame = (e.putFrame frame (e.frameAt frame), .stop) := by
  rcases checkPass_cases e frame with ⟨hc, -⟩ | ⟨-, fi, hfi, -⟩ | ⟨-, -, heq⟩
  · rw [hnot] at hc
    cases hc
  · rcases hfi with ⟨hready, -⟩ | ⟨⟨start, hstart, hover⟩, -⟩
    · exact absurd hnone (hready pid hpid)
    · exact absurd hover (hwait start hstart)
  · exact heq

/-- A player is waited for, and no frame has been confirmed. -/
structure Waiting (e : LockstepEngine) : Prop where
  active : e.activePlayers.Nonempty
  timeout : 0 < e.timeoutFrames
  unconfirmed : ∀ g fi, e.frameBuffer g = some fi → fi.confirmed = false
  later : ∀ g fi, e.frameBuffer g = some fi → e.currentFrame < g → ∀ pid, fi.playerInputs pid = none

theorem Waiting.setCurrentFrame (h : Waiting e) (hlt : e.currentFrame < frame) :
    Waiting (e.setCurrentFrame frame) := by
  rw [setCurrentFrame_of_lt hlt]
  exact ⟨h.active, h.timeout, h.unconfirmed,
    fun g fi hbuf hg => h.later g fi hbuf (UInt32.lt_trans hlt hg)⟩

/-- The frame that a waiting engine moves on to has no inputs, and its time has only begun. -/
theorem Waiting.frameAt (h : Waiting e) (hlt : e.currentFrame < frame) :
    ((e.setCurrentFrame frame).frameAt frame).confirmed = false ∧
      ∀ pid, ((e.setCurrentFrame frame).frameAt frame).playerInputs pid = none := by
  rw [setCurrentFrame_of_lt hlt]
  change ((e.frameBuffer frame).getD { frame }).confirmed = false ∧
    ∀ pid, ((e.frameBuffer frame).getD { frame }).playerInputs pid = none
  cases hbuf : e.frameBuffer frame with
  | none => exact ⟨rfl, fun _ => rfl⟩
  | some fi => exact ⟨h.unconfirmed frame fi hbuf, h.later frame fi hbuf hlt⟩

theorem Waiting.tryAdvance (h : Waiting e) (hlt : e.currentFrame < frame)
    (hwrap : frame.toNat + 32 < 2 ^ 32) :
    tryAdvance 1 (e.setCurrentFrame frame) = some ((e.setCurrentFrame frame).putFrame frame
      ((e.setCurrentFrame frame).frameAt frame), []) := by
  obtain ⟨pid, hpid⟩ := h.active
  obtain ⟨hnot, hnone⟩ := h.frameAt hlt
  have hwait : ∀ start, (e.setCurrentFrame frame).frameStartCount frame = some start →
      ¬ (e.setCurrentFrame frame).timeoutFrames ≤
        (e.setCurrentFrame frame).frameCounter - start := by
    intro start hstart
    rw [setCurrentFrame_of_lt hlt] at hstart ⊢
    simp only [Function.update_self, Option.some.injEq] at hstart
    rw [← hstart, UInt32.sub_self]
    exact UInt32.not_le.mpr h.timeout
  have hcur : (e.setCurrentFrame frame).currentFrame = frame := by rw [setCurrentFrame_of_lt hlt]
  have hcond : frame ≤ frame + 32 := by
    have hreach := toNat_reach frame
    rw [UInt32.le_iff_toNat_le]
    omega
  have hactive : pid ∈ (e.setCurrentFrame frame).activePlayers := by
    rw [setCurrentFrame_of_lt hlt]
    exact hpid
  unfold LockstepEngine.tryAdvance
  rw [LockstepEngine.advanceLoop, hcur, if_pos hcond,
    checkPass_waits hnot hactive (hnone pid) hwait]

/-- The frame is kept, whatever it waits for. -/
theorem Waiting.advance (h : Waiting e) (hlt : e.currentFrame < frame)
    (hrun : LockstepEngine.tryAdvance 1 (e.setCurrentFrame frame) = some (e', out))
    (hwrap : frame.toNat + 32 < 2 ^ 32) :
    Waiting e' ∧ e'.currentFrame = frame ∧
      (e'.frameBuffer frame ≠ none ∧ e'.frameStartCount frame ≠ none) ∧
      ∀ g, g ≠ frame → e'.frameBuffer g = e.frameBuffer g ∧
        e'.frameStartCount g = e.frameStartCount g := by
  rw [h.tryAdvance hlt hwrap] at hrun
  cases hrun
  obtain ⟨hnot, hnone⟩ := h.frameAt hlt
  have hset := h.setCurrentFrame hlt
  have hmem : ∀ g fi, ((e.setCurrentFrame frame).putFrame frame
      ((e.setCurrentFrame frame).frameAt frame)).frameBuffer g = some fi →
      fi = (e.setCurrentFrame frame).frameAt frame ∨
        (e.setCurrentFrame frame).frameBuffer g = some fi := by
    intro g fi hbuf
    rw [putFrame_frameBuffer] at hbuf
    split_ifs at hbuf
    · cases hbuf
      exact .inl rfl
    · exact .inr hbuf
  refine ⟨⟨hset.active, hset.timeout, fun g fi hbuf => ?_, fun g fi hbuf hg => ?_⟩, ?_, ⟨?_, ?_⟩,
    fun g hg => ⟨?_, ?_⟩⟩
  · rcases hmem g fi hbuf with rfl | hold
    · exact hnot
    · exact hset.unconfirmed g fi hold
  · rcases hmem g fi hbuf with rfl | hold
    · exact hnone
    · exact hset.later g fi hold hg
  · rw [putFrame_currentFrame, setCurrentFrame_of_lt hlt]
  · rw [putFrame_frameBuffer, if_pos rfl]
    exact Option.some_ne_none _
  · change (e.setCurrentFrame frame).frameStartCount frame ≠ none
    rw [setCurrentFrame_of_lt hlt]
    simp
  · rw [putFrame_frameBuffer, if_neg hg, setCurrentFrame_of_lt hlt]
  · change (e.setCurrentFrame frame).frameStartCount g = _
    rw [setCurrentFrame_of_lt hlt]
    exact Function.update_of_ne hg _ _

end LockstepEngine

/-- The states before the battle. -/
def BattleState.Before (s : BattleState) : Prop := s = .waiting ∨ s = .loading ∨ s = .countdown

namespace BattleRoom

variable {cfg : BattleRoomConfig} {r r' : BattleRoom} {event : Event}

/-! ## What a message or a tick does to the frames -/

/-- The engines have the same frames. -/
structure SameFrames (e e' : LockstepEngine) : Prop where
  currentFrame : e'.currentFrame = e.currentFrame
  frameBuffer : e'.frameBuffer = e.frameBuffer
  frameStartCount : e'.frameStartCount = e.frameStartCount

/-- One step, as the frames see it: a tick of the battle, an input during it, or neither. -/
inductive FrameStep (r r' : BattleRoom) : Event → Prop where
  | tick {passes : ℕ} {won : Bool} {confirmed : List FrameInputs}
      (hstate : r.battleState = .fighting)
      (hstate' : r'.battleState = .fighting ∨ r'.battleState = .finished)
      (hframe : r'.battleFrame = r.battleFrame + 1)
      (hrun : LockstepEngine.tryAdvance passes
        (r.lockstep.tickFrameCounter.setCurrentFrame (r.battleFrame + 1)) =
          some (r'.lockstep, confirmed)) : FrameStep r r' (.tick passes won)
  | hero {msg : HeroMsg} (hstate : r'.battleState = r.battleState)
      (hframe : r'.battleFrame = r.battleFrame)
      (hlockstep : r'.lockstep = (r.lockstep.submitInput msg.playerId msg.input).2) :
      FrameStep r r' (.hero msg)
  | other {event : Event} (hsame : SameFrames r.lockstep r'.lockstep)
      (hroom : r.battleState.Before ∨ r'.battleState = r.battleState ∧
        (r.battleState = .fighting → r'.battleFrame = r.battleFrame)) : FrameStep r r' event

theorem SameFrames.refl (e : LockstepEngine) : SameFrames e e := ⟨rfl, rfl, rfl⟩

theorem FrameStep.sameEngine (h : SameEngine r r') : FrameStep r r' event := by
  refine .other ?_ (.inr ⟨h.battleState, fun _ => h.battleFrame⟩)
  rw [h.lockstep]
  exact .refl _

theorem FrameStep.markDisconnected (playerId : UInt64) :
    FrameStep r (r.markDisconnected playerId) event := by
  unfold BattleRoom.markDisconnected
  cases r.findPlayer playerId with
  | none => exact .sameEngine ⟨rfl, rfl, rfl, rfl⟩
  | some info => exact .other ⟨rfl, rfl, rfl⟩ (.inr ⟨rfl, fun _ => rfl⟩)

theorem FrameStep.handleReconnect (playerId connId : UInt64) :
    FrameStep r (r.handleReconnect playerId connId) event := by
  have hsame : SameFrames r.lockstep (r.lockstep.playerReconnected playerId) := by
    unfold LockstepEngine.playerReconnected
    split_ifs <;> exact ⟨rfl, rfl, rfl⟩
  unfold BattleRoom.handleReconnect
  cases r.findPlayer playerId with
  | none => exact .sameEngine ⟨rfl, rfl, rfl, rfl⟩
  | some info => exact .other hsame (.inr ⟨rfl, fun _ => rfl⟩)

theorem FrameStep.onHero (msg : HeroMsg) : FrameStep r (r.onHero msg) (.hero msg) := by
  unfold BattleRoom.onHero
  split_ifs
  · exact .hero rfl rfl rfl
  · exact .sameEngine ⟨rfl, rfl, rfl, rfl⟩

/-- A tick outside the battle. -/
theorem FrameStep.tickState {frame : UInt32} {passes : ℕ} {won : Bool}
    (hstate : r.battleState ≠ .fighting) (hstep : r.tickState cfg frame passes won = some r') :
    SameFrames r.lockstep r'.lockstep ∧
      (r.battleState.Before ∨ r'.battleState = r.battleState) := by
  unfold BattleRoom.tickState at hstep
  cases hcase : r.battleState with
  | waiting =>
    rw [hcase] at hstep
    cases hstep
    refine ⟨?_, .inl (.inl rfl)⟩
    unfold BattleRoom.tickWaiting
    split_ifs <;> exact ⟨rfl, rfl, rfl⟩
  | loading =>
    rw [hcase] at hstep
    cases hstep
    refine ⟨?_, .inl (.inr (.inl rfl))⟩
    unfold BattleRoom.tickLoading
    split_ifs <;> exact ⟨rfl, rfl, rfl⟩
  | countdown =>
    rw [hcase] at hstep
    cases hstep
    refine ⟨?_, .inl (.inr (.inr rfl))⟩
    unfold BattleRoom.tickCountdown
    dsimp only
    split_ifs <;> exact ⟨rfl, rfl, rfl⟩
  | fighting => exact absurd hcase hstate
  | paused =>
    rw [hcase] at hstep
    cases hstep
    exact ⟨.refl _, .inr hcase⟩
  | finished =>
    rw [hcase] at hstep
    cases hstep
    exact ⟨.refl _, .inr hcase⟩

/-- A tick of the battle. -/
theorem tickFighting_frames {frame : UInt32} {passes : ℕ} {won : Bool}
    (hstep : r.tickFighting cfg frame passes won = some r') : ∃ confirmed,
      LockstepEngine.tryAdvance passes (r.lockstep.setCurrentFrame frame) =
        some (r'.lockstep, confirmed) ∧ r'.battleFrame = r.battleFrame ∧
      r'.battleState = if won then .finished else r.battleState := by
  unfold tickFighting at hstep
  obtain ⟨⟨e, confirmed⟩, hrun, heq⟩ := Option.bind_eq_some_iff.mp hstep
  cases heq
  refine ⟨confirmed, ?_⟩
  rw [sameEngine_dropDisconnected.lockstep, sameEngine_dropDisconnected.battleFrame,
    sameEngine_dropDisconnected.battleState]
  cases won with
  | false => exact ⟨hrun, rfl, rfl⟩
  | true => exact ⟨hrun, rfl, rfl⟩

theorem frameStep_of_next (hstep : next cfg r event = some r') : FrameStep r r' event := by
  cases event with
  | playerEnter playerId connId =>
    cases hstep
    exact .sameEngine sameEngine_onPlayerEnter
  | playerLeave playerId =>
    cases hstep
    unfold onPlayerLeave
    split_ifs
    · exact .markDisconnected playerId
    · exact .sameEngine sameEngine_removePlayer
  | playerDisconnect playerId =>
    cases hstep
    exact .markDisconnected playerId
  | playerReconnect playerId connId =>
    cases hstep
    exact .handleReconnect playerId connId
  | battleReady playerId =>
    cases hstep
    exact .sameEngine ⟨rfl, rfl, rfl, rfl⟩
  | hero msg =>
    cases hstep
    exact .onHero msg
  | tick passes won =>
    by_cases hstate : r.battleState = .fighting
    · have hfight : tickFighting cfg { r with
          battleFrame := r.battleFrame + 1, lockstep := r.lockstep.tickFrameCounter }
          (r.battleFrame + 1) passes won = some r' := by
        simpa only [next, tick, tickState, hstate] using hstep
      obtain ⟨confirmed, hrun, hframe, hstate'⟩ := tickFighting_frames hfight
      refine .tick hstate ?_ hframe hrun
      cases won with
      | false => exact .inl (hstate'.trans hstate)
      | true => exact .inr hstate'
    · obtain ⟨hsame, hroom⟩ := FrameStep.tickState (r := { r with
          battleFrame := r.battleFrame + 1, lockstep := r.lockstep.tickFrameCounter }) hstate hstep
      exact .other ⟨hsame.currentFrame, hsame.frameBuffer, hsame.frameStartCount⟩
        (hroom.imp_right fun hsame => ⟨hsame, fun hfight => absurd hfight hstate⟩)

/-! ## Rooms that keep to their history -/

/-- Before the battle the engine has not started, and during it it is where the room is. -/
def AtNumber (battleState : BattleState) (e : LockstepEngine) (battleFrame : UInt32) : Prop :=
  match battleState with
  | .fighting => e.currentFrame = battleFrame ∨ e.Unstarted
  | .paused | .finished => True
  | _ => e.Unstarted

/-- The engine's buffers between two events. -/
structure KeepsHistory (r : BattleRoom) : Prop where
  kept : r.lockstep.Kept
  number : AtNumber r.battleState r.lockstep r.battleFrame

/-- A tick of the battle confirms the frame it moves on to. -/
def ConfirmsFrame (r : BattleRoom) : Event → Prop
  | .tick _ _ => r.battleState = .fighting → r.lockstep.currentFrame < r.battleFrame + 1 →
      r.lockstep.ConfirmsAt (r.battleFrame + 1)
  | _ => True

instance (r : BattleRoom) (event : Event) : Decidable (ConfirmsFrame r event) :=
  match event with
  | .tick _ _ => inferInstanceAs (Decidable (_ → _ → _))
  | .playerEnter .. | .playerLeave _ | .playerDisconnect _ | .playerReconnect ..
  | .battleReady _ | .hero _ => .isTrue trivial

theorem keepsHistory_new (cfg : BattleRoomConfig) : KeepsHistory (new cfg) := by
  have hnew : LockstepEngine.Unstarted (new cfg).lockstep :=
    ⟨rfl, fun _ _ hbuf => absurd hbuf.symm (Option.some_ne_none _), fun _ => rfl⟩
  exact ⟨hnew.kept, hnew⟩

theorem atNumber_of_unstarted {battleState : BattleState} {e : LockstepEngine}
    {battleFrame : UInt32} (h : e.Unstarted) : AtNumber battleState e battleFrame := by
  cases battleState with
  | fighting => exact .inr h
  | paused | finished => trivial
  | waiting | loading | countdown => exact h

theorem KeepsHistory.next (h : KeepsHistory r) (hok : ConfirmsFrame r event)
    (hstep : BattleRoom.next cfg r event = some r') : KeepsHistory r' := by
  cases frameStep_of_next hstep with
  | tick hstate hstate' hframe hrun =>
    have hnumber : r.lockstep.currentFrame = r.battleFrame ∨ r.lockstep.Unstarted := by
      simpa [AtNumber, hstate] using h.number
    have hkept : r.lockstep.tickFrameCounter.Kept := h.kept.congr rfl rfl rfl
    have hnext : (r.battleFrame + 1).toNat = r.lockstep.tickFrameCounter.currentFrame.toNat + 1 ∨
        r.lockstep.tickFrameCounter.Unstarted := by
      refine hnumber.imp (fun hcur => ?_) fun hun => hun.congr rfl rfl rfl
      -- the window ends before the last frame number, and the frame is in it
      obtain ⟨last, hwin, hle⟩ := h.kept
      have hbound := hwin.bound
      change _ = r.lockstep.currentFrame.toNat + 1
      rw [hcur] at hle ⊢
      exact LockstepEngine.toNat_succ (by omega)
    obtain ⟨hkept', hcur'⟩ := hkept.tick hnext (hok hstate) hrun
    refine ⟨hkept', ?_⟩
    rcases hstate' with hfight | hover
    · rw [hfight, hframe]
      exact .inl hcur'
    · rw [hover]
      trivial
  | hero hstate hframe hlockstep =>
    rename_i msg
    refine ⟨hlockstep ▸ h.kept.submitInput _ _, ?_⟩
    have hnumber := h.number
    rw [hstate, hframe, hlockstep]
    cases hcase : r.battleState with
    | fighting =>
      rw [hcase] at hnumber
      exact hnumber.imp (fun hcur => LockstepEngine.submitInput_currentFrame.trans hcur)
        fun hun => hun.submitInput _ _
    | paused | finished => trivial
    | waiting | loading | countdown =>
      rw [hcase] at hnumber
      exact LockstepEngine.Unstarted.submitInput hnumber _ _
  | other hsame hroom =>
    obtain ⟨hcur, hbuf, hstart⟩ := hsame
    refine ⟨h.kept.congr hcur hbuf hstart, ?_⟩
    have hnumber := h.number
    rcases hroom with hbefore | ⟨hstate, hframe⟩
    · have hun : r.lockstep.Unstarted := by
        rcases hbefore with hcase | hcase | hcase <;> rwa [hcase] at hnumber
      exact atNumber_of_unstarted (hun.congr hcur hbuf hstart)
    · rw [hstate]
      cases hcase : r.battleState with
      | fighting =>
        rw [hcase] at hnumber
        rw [hframe hcase]
        exact hnumber.imp hcur.trans fun hun => hun.congr hcur hbuf hstart
      | paused | finished => trivial
      | waiting | loading | countdown =>
        rw [hcase] at hnumber
        exact LockstepEngine.Unstarted.congr hnumber hcur hbuf hstart

/-- The buffers stay bounded in every run in which each tick of the battle confirms the frame
it moves on to. -/
theorem withinHistory_of_confirmsFrame {cfg : BattleRoomConfig} {events : List Event}
    {r : BattleRoom} (hok : RunOk (next cfg) ConfirmsFrame (new cfg) events)
    (hrun : run (next cfg) (new cfg) events = some r) : r.lockstep.WithinHistory := by
  obtain ⟨last, hwin, hle⟩ := (run_invariant (fun _ _ _ hok h hstep => KeepsHistory.next h hok hstep)
    (keepsHistory_new cfg) hok hrun).kept
  exact hwin.withinHistory hle

/-- Two players enter, load and are counted in. -/
def opening : List Event :=
  [.playerEnter 1 1, .playerEnter 2 2, .tick 1 false, .battleReady 1, .battleReady 2,
    .tick 1 false, .tick 1 false, .tick 1 false, .tick 1 false]

/-- Without a timeout, every tick confirms its frame with empty inputs. -/
theorem withinHistory_of_no_timeout :
    ∃ r, run (next { teamSize := 1, lockstepTimeoutMs := 0 })
        (new { teamSize := 1, lockstepTimeoutMs := 0 })
        (opening ++ [.tick 34 false, .tick 34 false]) = some r ∧ r.lockstep.WithinHistory := by
  obtain ⟨r, hrun⟩ := Option.isSome_iff_exists.mp
    (show (run (next { teamSize := 1, lockstepTimeoutMs := 0 })
      (new { teamSize := 1, lockstepTimeoutMs := 0 })
      (opening ++ [.tick 34 false, .tick 34 false])).isSome by decide)
  exact ⟨r, hrun, withinHistory_of_confirmsFrame (by decide) hrun⟩

/-! ## Rooms that do not -/

/-- A battle with a player that is waited for: all frames after `first` are still there. -/
structure Stalled (first : ℕ) (r : BattleRoom) : Prop where
  state : r.battleState = .fighting
  waiting : r.lockstep.Waiting
  behind : r.lockstep.currentFrame ≤ r.battleFrame
  held : ∀ g, first < g.toNat → g ≤ r.battleFrame →
    r.lockstep.frameBuffer g ≠ none ∧ r.lockstep.frameStartCount g ≠ none

/-- A tick adds a frame and forgets none. -/
theorem Stalled.tick {first : ℕ} (h : Stalled first r) (cfg : BattleRoomConfig)
    (hwrap : r.battleFrame.toNat + 33 < 2 ^ 32) :
    ∃ r', next cfg r (.tick 1 false) = some r' ∧ r'.battleFrame = r.battleFrame + 1 ∧
      Stalled first r' := by
  have hsucc : (r.battleFrame + 1).toNat = r.battleFrame.toNat + 1 :=
    LockstepEngine.toNat_succ (by omega)
  have hbehind := UInt32.le_iff_toNat_le.mp h.behind
  have hlt : r.lockstep.tickFrameCounter.currentFrame < r.battleFrame + 1 := by
    rw [UInt32.lt_iff_toNat_lt, hsucc]
    exact Nat.lt_succ_of_le hbehind
  have hwaiting : r.lockstep.tickFrameCounter.Waiting :=
    ⟨h.waiting.active, h.waiting.timeout, h.waiting.unconfirmed, h.waiting.later⟩
  have hadvance := hwaiting.tryAdvance hlt (by omega)
  have hfight : next cfg r (.tick 1 false) = tickFighting cfg { r with
      battleFrame := r.battleFrame + 1, lockstep := r.lockstep.tickFrameCounter }
      (r.battleFrame + 1) 1 false := by
    simp only [next, BattleRoom.tick, tickState, h.state]
  obtain ⟨r', hr'⟩ : ∃ r', tickFighting cfg { r with
      battleFrame := r.battleFrame + 1, lockstep := r.lockstep.tickFrameCounter }
      (r.battleFrame + 1) 1 false = some r' := by
    unfold tickFighting
    simp only [hadvance]
    exact ⟨_, rfl⟩
  obtain ⟨confirmed, hrun, hframe, hstate⟩ := tickFighting_frames hr'
  obtain ⟨hwaiting', hcur, hnew, hold⟩ := hwaiting.advance hlt hrun (by omega)
  refine ⟨r', hfight.trans hr', hframe, hstate.trans h.state, hwaiting', ?_, fun g hfirst hg => ?_⟩
  · rw [hcur, hframe]
    exact UInt32.le_refl _
  · by_cases hgf : g = r.battleFrame + 1
    · exact hgf ▸ hnew
    · obtain ⟨hbuf, hstart⟩ := hold g hgf
      have hgfNat := mt UInt32.toNat_inj.mp hgf
      have hgNat := UInt32.le_iff_toNat_le.mp hg
      rw [hframe, hsucc] at hgNat
      rw [hbuf, hstart]
      exact h.held g hfirst (UInt32.le_iff_toNat_le.mpr (by omega))

theorem Stalled.ticks {first : ℕ} (h : Stalled first r) (cfg : BattleRoomConfig) (n : ℕ)
    (hwrap : r.battleFrame.toNat + n + 32 < 2 ^ 32) :
    ∃ r', run (next cfg) r (List.replicate n (.tick 1 false)) = some r' ∧
      r'.battleFrame.toNat = r.battleFrame.toNat + n ∧ Stalled first r' := by
  induction n generalizing r with
  | zero => exact ⟨r, rfl, rfl, h⟩
  | succ n ih =>
    obtain ⟨r₁, hstep, hframe, h₁⟩ := h.tick cfg (by omega)
    have hsucc : (r.battleFrame + 1).toNat = r.battleFrame.toNat + 1 :=
      LockstepEngine.toNat_succ (by omega)
    obtain ⟨r', hrun, hframe', h'⟩ := ih h₁ (by rw [hframe, hsucc]; omega)
    refine ⟨r', ?_, ?_, h'⟩
    · rw [List.replicate_succ, run_cons, hstep]
      exact hrun
    · rw [hframe', hframe, hsucc]
      omega

/-- The buffer of a stalled battle holds a frame for each tick. -/
theorem Stalled.le_ncard {first : ℕ} (h : Stalled first r) :
    r.battleFrame.toNat - first ≤ Set.ncard {g | r.lockstep.frameBuffer g ≠ none} := by
  have hmax := r.battleFrame.toNat_lt
  have hsub : ↑(Finset.Ioc first r.battleFrame.toNat) ⊆
      UInt32.toNat '' {g | r.lockstep.frameBuffer g ≠ none} := by
    intro m hm
    obtain ⟨hlow, hhigh⟩ := Finset.mem_Ioc.mp hm
    have hnat : (UInt32.ofNat m).toNat = m := UInt32.toNat_ofNat_of_lt' (by change m < 2 ^ 32; omega)
    refine ⟨UInt32.ofNat m, (h.held _ (by omega) ?_).1, hnat⟩
    rw [UInt32.le_iff_toNat_le]
    omega
  have hinj : Function.Injective UInt32.toNat := fun a b h => UInt32.toNat_inj.mp h
  calc r.battleFrame.toNat - first = (Finset.Ioc first r.battleFrame.toNat).card :=
        (Nat.card_Ioc _ _).symm
    _ ≤ (UInt32.toNat '' {g | r.lockstep.frameBuffer g ≠ none}).ncard := by
      rw [← Set.ncard_coe_finset]
      exact Set.ncard_le_ncard hsub (Set.toFinite _)
    _ = Set.ncard {g | r.lockstep.frameBuffer g ≠ none} := Set.ncard_image_of_injective _ hinj

/-- Both players of the opening are there and send nothing. -/
theorem stalled_opening : ∃ r, run (next { teamSize := 1 }) (new { teamSize := 1 }) opening = some r ∧
    r.battleFrame = 5 ∧ Stalled 5 r := by
  have hopening : (run (next { teamSize := 1 }) (new { teamSize := 1 }) opening).map (fun r =>
      (r.battleState, r.battleFrame, r.lockstep.currentFrame,
        decide (1 ∈ r.lockstep.activePlayers), r.lockstep.timeoutFrames, (r.lockstep.frameBuffer 0).isNone)) =
      some (.fighting, 5, 0, true, 6, true) := by decide
  obtain ⟨r, hrun, heq⟩ := Option.map_eq_some_iff.mp hopening
  simp only [Prod.mk.injEq, Option.isNone_iff_eq_none, decide_eq_true_eq] at heq
  obtain ⟨hstate, hframe, hcur, hactive, htimeout, hzero⟩ := heq
  have hkeeps := run_invariant (fun _ _ _ hok h hstep => KeepsHistory.next h hok hstep)
    (keepsHistory_new { teamSize := 1 }) (by decide) hrun
  have hun : r.lockstep.Unstarted := by
    have hnumber := hkeeps.number
    rw [hstate, hframe] at hnumber
    refine hnumber.resolve_left fun h => ?_
    rw [hcur] at h
    exact absurd h (by decide)
  have hempty : ∀ g, r.lockstep.frameBuffer g = none := by
    intro g
    refine Option.eq_none_iff_forall_ne_some.mpr fun fi hbuf => ?_
    rw [hun.onlyZero g fi hbuf, hzero] at hbuf
    cases hbuf
  refine ⟨r, hrun, hframe, hstate, ⟨?_, ?_, fun g fi hbuf => ?_, fun g fi hbuf => ?_⟩, ?_,
    fun g hlow hhigh => ?_⟩
  · exact ⟨1, hactive⟩
  · rw [htimeout]
    decide
  · rw [hempty] at hbuf
    cases hbuf
  · rw [hempty] at hbuf
    cases hbuf
  · rw [hcur]
    exact UInt32.zero_le
  · have hhighNat := UInt32.le_iff_toNat_le.mp hhigh
    rw [hframe] at hhighNat
    exact absurd hlow (Nat.not_lt.mpr hhighNat)

/-- Two players that send nothing: after 400 ticks the buffer holds 400 frames. -/
theorem idle_not_withinHistory :
    ¬ ∀ (cfg : BattleRoomConfig) (events : List Event) (r : BattleRoom),
      run (next cfg) (new cfg) events = some r → r.lockstep.WithinHistory := by
  intro h
  obtain ⟨r, hrun, hframe, hstalled⟩ := stalled_opening
  have h5 : r.battleFrame.toNat = 5 := by rw [hframe]; rfl
  obtain ⟨r', hrun', hframe', hstalled'⟩ := hstalled.ticks { teamSize := 1 } 400 (by omega)
  have hbound := (h { teamSize := 1 } _ r' (run_append_eq_some.mpr ⟨r, hrun, hrun'⟩)).1
  have hheld := hstalled'.le_ncard
  have hsize : historySize.toNat + LockstepEngine.lookAhead = 332 := rfl
  omega

end BattleRoom

end Gmaker.Realtime
