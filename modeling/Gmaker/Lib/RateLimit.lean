import Mathlib

/-!
# Gmaker.Lib.RateLimit — limits on windows

A rate limit grants what fits: in every window that ends with a request, what was granted and what
is asked for come to at most a burst and what the rate gives for the length of the window. What
such a limiter grants in a window of any place and length is bounded (`spent_window_le`).

A log is of what was granted: times and amounts, the last one first.
-/

namespace Gmaker.Lib.RateLimit

/-! ## Windows -/

section Windows

variable {K : Type*} {s m t : K} {log : List (K × K)}

/-- The time of the first grant of a log, and `t` if there is none. -/
def start (log : List (K × K)) (t : K) : K := (log.getLast?.map Prod.fst).getD t

@[simp] theorem start_nil (t : K) : start [] t = t := rfl

theorem start_cons (s m : K) (log : List (K × K)) (t : K) :
    start ((s, m) :: log) t = start log s := by
  cases log with
  | nil => rfl
  | cons g log =>
    rw [start, start, List.getLast?_cons_cons, List.getLast?_cons]
    rfl

variable [LinearOrder K]

/-- A window begins before it ends. -/
theorem start_le (h : ∀ g ∈ log, g.1 ≤ t) : start log t ≤ t := by
  unfold start
  cases hlast : log.getLast? with
  | none => exact le_refl t
  | some g => exact h g (List.mem_of_getLast? hlast)

/-- The grants of a log from the time `lo` on are a window of it, up to the last grant. -/
theorem filter_eq_window (hsorted : log.Pairwise fun g h => h.1 ≤ g.1) (lo : K) :
    log.filter (fun g => decide (lo ≤ g.1)) <+: log := by
  induction log with
  | nil => exact List.nil_prefix
  | cons g log ih =>
    rcases List.pairwise_cons.mp hsorted with ⟨hhead, htail⟩
    by_cases hlo : lo ≤ g.1
    · rw [List.filter_cons_of_pos (by simpa using hlo)]
      exact List.cons_prefix_cons.mpr ⟨rfl, ih htail⟩
    · rw [List.filter_cons_of_neg (by simpa using hlo)]
      have hnone : log.filter (fun g => decide (lo ≤ g.1)) = [] := by
        rw [List.filter_eq_nil_iff]
        intro h hh
        have hle := hhead h hh
        simp only [decide_eq_true_eq, not_le]
        exact lt_of_le_of_lt hle (not_le.mp hlo)
      rw [hnone]
      exact List.nil_prefix

end Windows

/-! ## Limits -/

variable {K : Type*} [Field K]

/-- What was granted in a log. -/
def spent (log : List (K × K)) : K := (log.map Prod.snd).sum

@[simp] theorem spent_nil : spent ([] : List (K × K)) = 0 := rfl

@[simp] theorem spent_cons (g : K × K) (log : List (K × K)) : spent (g :: log) = g.2 + spent log :=
  rfl

variable [LinearOrder K]

/-- At the time `t` there is room for `n` more: in every window that ends then. -/
def Fits (burst rate : K) (log : List (K × K)) (t n : K) : Prop :=
  ∀ window, window <+: log → spent window + n ≤ burst + rate * (t - start window t)

/-- Everything in the log fitted when it was granted. -/
def Granted (burst rate : K) (log : List (K × K)) : Prop :=
  ∀ t n rest, (t, n) :: rest <:+ log → Fits burst rate rest t n

/-- These are the marks of the requests that are granted, if what fits is granted. -/
def Greedy (burst rate : K) : List (K × K) → List (K × K) → List Bool → Prop
  | _, [], marks => marks = []
  | _, _ :: _, [] => False
  | log, (t, n) :: requests, mark :: marks =>
    (mark = true ↔ Fits burst rate log t n) ∧
      Greedy burst rate (if mark then (t, n) :: log else log) requests marks

/-- No request falls between two limits: it fits into the first, or not even into the second; the
log is of those that did fit. -/
def NoGap (burst rate burst' rate' : K) : List (K × K) → List (K × K) → Prop
  | _, [] => True
  | log, (t, n) :: requests =>
    (Fits burst rate log t n ∧ NoGap burst rate burst' rate' ((t, n) :: log) requests) ∨
      (¬ Fits burst' rate' log t n ∧ NoGap burst rate burst' rate' log requests)

/-- From `now` on, the room is a level that rises with the rate, up to the burst. -/
def Room (burst rate : K) (log : List (K × K)) (now level : K) : Prop :=
  ∀ t n, now ≤ t → (Fits burst rate log t n ↔ n ≤ min burst (level + rate * (t - now)))

variable {burst rate burst' rate' now level t n s m T : K} {log requests : List (K × K)}
  {marks marks' : List Bool}

theorem fits_nil : Fits burst rate [] t n ↔ n ≤ burst := by
  unfold Fits
  constructor
  · intro h
    have hempty := h [] List.nil_prefix
    simpa using hempty
  · intro h window hwindow
    rw [List.prefix_nil.mp hwindow]
    simpa using h

theorem Room.fits_iff (h : Room burst rate log now level) (hlevel : level ≤ burst) :
    Fits burst rate log now n ↔ n ≤ level := by
  rw [h now n (le_refl now), sub_self, mul_zero, add_zero, min_eq_right hlevel]

theorem Granted.cons (h : Granted burst rate log) (hfits : Fits burst rate log t n) :
    Granted burst rate ((t, n) :: log) := by
  intro s m rest hsuffix
  rcases List.suffix_cons_iff.mp hsuffix with heq | htail
  · cases heq
    exact hfits
  · exact h s m rest htail

variable [IsStrictOrderedRing K]

/-- There is room for `n` now if there was for so much more at the last grant, less what the rate
has given since. -/
theorem fits_cons :
    Fits burst rate ((s, m) :: log) t n ↔
      n ≤ burst ∧ Fits burst rate log s (m + n - rate * (t - s)) := by
  unfold Fits
  -- the window of no grant, and the windows that the new grant is in
  constructor
  · intro h
    constructor
    · have hempty := h [] List.nil_prefix
      simpa using hempty
    · intro window hwindow
      have hcons := h ((s, m) :: window) (List.cons_prefix_cons.mpr ⟨rfl, hwindow⟩)
      rw [spent_cons, start_cons] at hcons
      linarith
  · rintro ⟨hburst, h⟩ window hwindow
    rcases List.prefix_cons_iff.mp hwindow with rfl | ⟨window', rfl, hprefix⟩
    · simpa using hburst
    · have hlog := h window' hprefix
      rw [spent_cons, start_cons]
      linarith

/-- Where a smaller limit has room, a larger one has. -/
theorem Fits.mono (h : Fits burst rate log t n) (hburst : burst ≤ burst') (hrate : rate ≤ rate')
    (hlog : ∀ g ∈ log, g.1 ≤ t) : Fits burst' rate' log t n := by
  intro window hwindow
  have hstart : start window t ≤ t := start_le fun g hg => hlog g (hwindow.subset hg)
  have hgrown : rate * (t - start window t) ≤ rate' * (t - start window t) :=
    mul_le_mul_of_nonneg_right hrate (sub_nonneg.mpr hstart)
  have hfits := h window hwindow
  linarith

/-- In a window of any place and length no more is granted than a burst and what the rate gives. -/
theorem spent_window_le (hgranted : Granted burst rate log)
    (hsorted : log.Pairwise fun g h => h.1 ≤ g.1) (hburst : 0 ≤ burst) (hrate : 0 ≤ rate)
    (hT : 0 ≤ T) (lo : K) :
    spent (log.filter fun g => decide (lo ≤ g.1 ∧ g.1 ≤ lo + T)) ≤ burst + rate * T := by
  induction log with
  | nil =>
    rw [List.filter_nil, spent_nil]
    positivity
  | cons g log ih =>
    rcases List.pairwise_cons.mp hsorted with ⟨hhead, htail⟩
    have hrest : Granted burst rate log := by
      intro t n rest hsuffix
      exact hgranted t n rest (hsuffix.trans (List.suffix_cons g log))
    by_cases hin : lo ≤ g.1 ∧ g.1 ≤ lo + T
    · -- the last grant of the window: what was granted before it, from `lo` on, is a window
      rw [List.filter_cons_of_pos (by simpa using hin), spent_cons]
      have hbefore : log.filter (fun h => decide (lo ≤ h.1 ∧ h.1 ≤ lo + T)) =
          log.filter fun h => decide (lo ≤ h.1) := by
        apply List.filter_congr
        intro h hh
        have hle := (hhead h hh).trans hin.2
        simp [hle]
      have hfits := hgranted g.1 g.2 log List.suffix_rfl _ (filter_eq_window htail lo)
      have hstart : lo ≤ start (log.filter fun h => decide (lo ≤ h.1)) g.1 := by
        unfold start
        cases hlast : (log.filter fun h => decide (lo ≤ h.1)).getLast? with
        | none => exact hin.1
        | some h => simpa using (List.mem_filter.mp (List.mem_of_getLast? hlast)).2
      have hgrown : rate * (g.1 - start (log.filter fun h => decide (lo ≤ h.1)) g.1) ≤ rate * T :=
        mul_le_mul_of_nonneg_left (by linarith [hin.2]) hrate
      rw [hbefore]
      linarith
    · rw [List.filter_cons_of_neg (by simpa using hin)]
      exact ih hrest htail

/-! ## Levels -/

/-- A limiter that has granted nothing is full. -/
theorem room_nil (hrate : 0 ≤ rate) (now : K) : Room burst rate [] now burst := by
  intro t n ht
  rw [fits_nil, min_eq_left]
  exact le_add_of_nonneg_right (mul_nonneg hrate (sub_nonneg.mpr ht))

/-- The level later is what it has risen to, up to the burst. -/
theorem Room.advance (h : Room burst rate log now level) (hrate : 0 ≤ rate) (ht : now ≤ t) :
    Room burst rate log t (min burst (level + rate * (t - now))) := by
  intro u n hu
  have hrise : 0 ≤ rate * (u - t) := mul_nonneg hrate (sub_nonneg.mpr hu)
  have hstep : n ≤ min burst (level + rate * (t - now)) + rate * (u - t) ↔
      n - rate * (u - t) ≤ burst ∧ n - rate * (u - t) ≤ level + rate * (t - now) := by
    rw [← sub_le_iff_le_add, le_min_iff]
  rw [h u n (ht.trans hu), le_min_iff, le_min_iff, hstep]
  constructor
  · rintro ⟨hburst, hlevel⟩
    exact ⟨hburst, by linarith, by linarith⟩
  · rintro ⟨hburst, -, hlevel⟩
    exact ⟨hburst, by linarith⟩

/-- A grant lowers the level by what was granted. -/
theorem Room.grant (h : Room burst rate log now level) (hlevel : level ≤ burst) (m : K) :
    Room burst rate ((now, m) :: log) now (level - m) := by
  intro t n ht
  rw [fits_cons, h now _ (le_refl now), sub_self, mul_zero, add_zero, min_eq_right hlevel,
    le_min_iff]
  constructor
  · rintro ⟨hburst, hroom⟩
    exact ⟨hburst, by linarith⟩
  · rintro ⟨hburst, hroom⟩
    exact ⟨hburst, by linarith⟩

/-! ## Two limits -/

/-- A smaller and a larger limit grant the same, if and only if no request falls between them. -/
theorem greedy_eq_iff (hburst : burst ≤ burst') (hrate : rate ≤ rate')
    (hsorted : requests.Pairwise fun g h => g.1 ≤ h.1) (hpast : ∀ r ∈ requests, ∀ g ∈ log, g.1 ≤ r.1)
    (h : Greedy burst rate log requests marks) (h' : Greedy burst' rate' log requests marks') :
    marks = marks' ↔ NoGap burst rate burst' rate' log requests := by
  induction requests generalizing log marks marks' with
  | nil => exact iff_of_true (h.trans h'.symm) trivial
  | cons r requests ih =>
    rcases r with ⟨t, n⟩
    cases marks with
    | nil => exact absurd h (by simp [Greedy])
    | cons mark marks =>
      cases marks' with
      | nil => exact absurd h' (by simp [Greedy])
      | cons mark' marks' =>
        rcases List.pairwise_cons.mp hsorted with ⟨hhead, htail⟩
        rcases h with ⟨hmark, hrest⟩
        rcases h' with ⟨hmark', hrest'⟩
        have hmono : Fits burst rate log t n → Fits burst' rate' log t n := fun hfits =>
          hfits.mono hburst hrate (hpast (t, n) List.mem_cons_self)
        -- while the marks agree the logs do, and the larger limit has the room of the smaller
        have hgranted : ∀ r ∈ requests, ∀ g ∈ (t, n) :: log, g.1 ≤ r.1 := by
          intro r hr g hg
          rcases List.mem_cons.mp hg with rfl | hlog
          · exact hhead r hr
          · exact hpast r (List.mem_cons_of_mem _ hr) g hlog
        have hrefused : ∀ r ∈ requests, ∀ g ∈ log, g.1 ≤ r.1 := fun r hr =>
          hpast r (List.mem_cons_of_mem _ hr)
        rw [NoGap, List.cons.injEq]
        by_cases hsmall : Fits burst rate log t n
        · have htrue : mark = true := hmark.mpr hsmall
          have htrue' : mark' = true := hmark'.mpr (hmono hsmall)
          subst htrue htrue'
          have hiff := ih htail hgranted hrest hrest'
          simp only [true_and, hsmall, hmono hsmall, not_true_eq_false, false_and, or_false]
          exact hiff
        · have hfalse : mark = false := Bool.eq_false_iff.mpr fun heq => hsmall (hmark.mp heq)
          subst hfalse
          by_cases hlarge : Fits burst' rate' log t n
          · -- the request falls between the limits
            have htrue' : mark' = true := hmark'.mpr hlarge
            subst htrue'
            simp [hsmall, hlarge]
          · have hfalse' : mark' = false := Bool.eq_false_iff.mpr fun heq => hlarge (hmark'.mp heq)
            subst hfalse'
            have hiff := ih htail hrefused hrest hrest'
            simp only [true_and, hsmall, hlarge, not_false_eq_true, false_and, false_or]
            exact hiff

end Gmaker.Lib.RateLimit
