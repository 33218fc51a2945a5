import Gmaker.Lib.Machine

/-!
# Gmaker.Replay — the timestamp + nonce replay checker

`replay::Checker` (C++) and `replay.Checker` (Go) run the same algorithm: a
timestamp has to lie between the lower bound `minTs` of the window and 30 s
ahead of the clock, the nonce must not be remembered, and an accepted call
remembers its nonce under the *clock reading* and then forgets every nonce
remembered before `now - window`. They differ in the key only: the C++ one keys
its memory by timestamp and nonce, the Go one by the nonce alone. `check` and
`gcLocked` are the common algorithm; the `Cpp` and `Go` sections apply them to
each implementation's own key, result and unit of the window.

The memory of a nonce is dated by the clock, the window test looks at the
timestamp. `replay_exact` says what follows: the pair of a call is refused from
then on exactly when its timestamp is not ahead of the clock (or the call is
rejected anyway, or a negative window leaves the timestamp behind at once).
-/

namespace Gmaker.Replay

open Gmaker.Lib

/-- A byte string (`std::string`, Go `string`). -/
abbrev Bytes := List UInt8

/-- `std::chrono::seconds(30)`, `30 * time.Second`: how far ahead of the clock a
timestamp may lie. -/
def maxAhead : Int := 30 * 1000000000

/-- The checker's fields: the nonces remembered with the clock reading of the
call that brought them, and the lower bound of the window. Clock readings,
timestamps and windows are in nanoseconds. -/
structure Checker where
  window : Int
  nonces : List (Bytes × Int)
  minTs : Int
deriving DecidableEq

/-- The outcomes of `Check`. -/
inductive Verdict where
  | tooFarInFuture
  | outsideWindow
  | duplicateNonce
  | accepted
deriving DecidableEq

/-- Whether the call is let through. -/
def Verdict.ok : Verdict → Bool
  | .accepted => true
  | _ => false

@[simp] theorem Verdict.ok_iff {v : Verdict} : v.ok = true ↔ v = .accepted := by
  cases v <;> simp [Verdict.ok]

/-- `NewChecker` / the constructor: the window opens `window` before the clock
reading `now`. -/
def newChecker (window now : Int) : Checker :=
  { window := window, nonces := [], minTs := now - window }

/-- `GcLocked`: move the lower bound up to `now - window` and forget the nonces
remembered before it. -/
def gcLocked (c : Checker) (now : Int) : Checker :=
  let cutoff := now - c.window
  if cutoff < c.minTs then c
  else { c with minTs := cutoff, nonces := c.nonces.filter fun e => ¬ e.2 < cutoff }

/-- `Check` at clock reading `now`, with the implementation's nonce key. -/
def check (key : Int → Bytes → Bytes) (c : Checker) (now ts : Int) (nonce : Bytes) :
    Verdict × Checker :=
  if now + maxAhead < ts then (.tooFarInFuture, c)
  else if ts < c.minTs then (.outsideWindow, c)
  else if (c.nonces.lookup (key ts nonce)).isSome then (.duplicateNonce, c)
  else (.accepted, gcLocked { c with nonces := (key ts nonce, now) :: c.nonces } now)

/-! ## The two implementations -/

/-- `std::to_string` of a count of nanoseconds. -/
def toDecimal (n : Int) : Bytes :=
  (if n < 0 then [45] else []) ++ (Nat.toDigits 10 n.natAbs).map fun d => d.val.toUInt8

namespace Cpp

/-- `std::to_string(ts) + ":" + nonce`. -/
def key (ts : Int) (nonce : Bytes) : Bytes := toDecimal ts ++ 58 :: nonce

/-- `Checker::Checker`: the window is given in milliseconds. -/
def new (windowMs : Int) (now : Int) : Checker := newChecker (windowMs * 1000000) now

/-- `Checker::Check` returns whether the pair is acceptable. -/
def check (c : Checker) (now ts : Int) (nonce : Bytes) : Bool × Checker :=
  let r := Replay.check key c now ts nonce
  (r.1.ok, r.2)

end Cpp

namespace Go

/-- `key := nonce`. -/
def key (_ : Int) (nonce : Bytes) : Bytes := nonce

/-- `NewChecker`: a `time.Duration` is in nanoseconds. -/
def newChecker (window : Int) (now : Int) : Checker := Replay.newChecker window now

/-- The error texts of `Check`; `none` is `nil`. -/
def errorText : Verdict → Option String
  | .tooFarInFuture => some "timestamp too far in the future"
  | .outsideWindow => some "timestamp outside replay window"
  | .duplicateNonce => some "duplicate nonce detected"
  | .accepted => none

/-- `Checker.Check` returns an error or `nil`. -/
def check (c : Checker) (now ts : Int) (nonce : Bytes) : Option String × Checker :=
  let r := Replay.check key c now ts nonce
  (errorText r.1, r.2)

end Go

/-- The C++ and the Go checker. -/
inductive Impl where
  | cpp
  | go
deriving DecidableEq

/-- The checker an implementation builds for a window in its own unit. -/
def Impl.new : Impl → Int → Int → Checker
  | .cpp => Cpp.new
  | .go => Go.newChecker

/-- Whether an implementation's `Check` accepts, and the checker it leaves. -/
def Impl.check : Impl → Checker → Int → Int → Bytes → Bool × Checker
  | .cpp, c, now, ts, nonce => Cpp.check c now ts nonce
  | .go, c, now, ts, nonce => ((Go.check c now ts nonce).1.isNone, (Go.check c now ts nonce).2)

/-- The key under which an implementation remembers a nonce. -/
def Impl.key : Impl → Int → Bytes → Bytes
  | .cpp => Cpp.key
  | .go => Go.key

/-- Both are the common algorithm with their own key. -/
theorem Impl.check_eq (i : Impl) (c : Checker) (now ts : Int) (nonce : Bytes) :
    i.check c now ts nonce =
      ((Replay.check i.key c now ts nonce).1.ok, (Replay.check i.key c now ts nonce).2) := by
  cases i with
  | cpp => rfl
  | go =>
    have herr : ∀ v : Verdict, (Go.errorText v).isNone = v.ok := by
      intro v
      cases v <;> rfl
    simp only [Impl.check, Go.check, Impl.key, herr]

/-- A different nonce has a different key at the same timestamp. -/
theorem Impl.key_injective (i : Impl) (ts : Int) : Function.Injective (i.key ts) := by
  intro n n' h
  cases i with
  | cpp => simpa [Impl.key, Cpp.key] using h
  | go => exact h

/-! ## Calls -/

/-- One `Check` call: the clock reading it takes and its arguments. -/
structure Call where
  now : Int
  ts : Int
  nonce : Bytes
deriving DecidableEq

/-- The (timestamp, nonce) pair of a call. -/
def Call.pair (k : Call) : Int × Bytes := (k.ts, k.nonce)

/-- Whether an implementation accepts the call. -/
def Accepts (i : Impl) (c : Checker) (k : Call) : Prop := (i.check c k.now k.ts k.nonce).1 = true

instance (i : Impl) (c : Checker) (k : Call) : Decidable (Accepts i c k) :=
  inferInstanceAs (Decidable (_ = true))

/-- The checker after one call. -/
def afterCall (i : Impl) (c : Checker) (k : Call) : Checker := (i.check c k.now k.ts k.nonce).2

/-- The checker after a sequence of calls. -/
def after (i : Impl) (c : Checker) (ks : List Call) : Checker := ks.foldl (afterCall i) c

/-- The pairs that the calls of a sequence get accepted, in order. -/
def accepted (i : Impl) : Checker → List Call → List (Int × Bytes)
  | _, [] => []
  | c, k :: ks =>
    if Accepts i c k then k.pair :: accepted i (afterCall i c k) ks
    else accepted i (afterCall i c k) ks

/-- The clock readings of the calls never go back, and start at `t` or later. -/
def ClockFrom : Int → List Call → Prop
  | _, [] => True
  | t, k :: ks => t ≤ k.now ∧ ClockFrom k.now ks

instance decidableClockFrom : ∀ t ks, Decidable (ClockFrom t ks)
  | _, [] => isTrue trivial
  | t, k :: ks =>
    have := decidableClockFrom k.now ks
    inferInstanceAs (Decidable (t ≤ k.now ∧ ClockFrom k.now ks))

/-- The nonce of the call is not remembered. -/
def Fresh (i : Impl) (c : Checker) (k : Call) : Prop :=
  (c.nonces.lookup (i.key k.ts k.nonce)).isNone

instance (i : Impl) (c : Checker) (k : Call) : Decidable (Fresh i c k) :=
  inferInstanceAs (Decidable (_ = true))

/-- The timestamps that do no harm at a clock reading: not ahead of the clock, so
far ahead that they are rejected, or below the bound that the call moves up. -/
def SafeTimestamp (window : Int) (k : Call) : Prop :=
  k.ts ≤ k.now ∨ k.now + maxAhead < k.ts ∨ k.ts < k.now - window

instance (window : Int) (k : Call) : Decidable (SafeTimestamp window k) :=
  inferInstanceAs (Decidable (_ ∨ _))

/-- A call does no harm when its timestamp does none or its nonce is remembered. -/
def SafeCall (i : Impl) (c : Checker) (k : Call) : Prop :=
  SafeTimestamp c.window k ∨ ¬ Fresh i c k

instance (i : Impl) (c : Checker) (k : Call) : Decidable (SafeCall i c k) :=
  inferInstanceAs (Decidable (_ ∨ _))

/-- The checker as a machine driven by calls. -/
def next (i : Impl) (c : Checker) (k : Call) : Option Checker := some (afterCall i c k)

/-! ## What one call does -/

section Steps

variable {key : Int → Bytes → Bytes} {c : Checker} {now ts : Int} {nonce : Bytes}

/-- A call is accepted when its timestamp is in the window and its nonce is new. -/
theorem check_accepted_iff :
    (check key c now ts nonce).1 = .accepted ↔
      ts ≤ now + maxAhead ∧ c.minTs ≤ ts ∧ ∀ t, (key ts nonce, t) ∉ c.nonces := by
  have hlookup : (c.nonces.lookup (key ts nonce)).isSome ↔ ∃ t, (key ts nonce, t) ∈ c.nonces := by
    simp [List.lookup_isSome_iff]
  unfold check
  split_ifs with h1 h2 h3
  · simp [h1]
  · simp [h2]
  · simpa using fun _ _ => hlookup.mp h3
  · rw [hlookup, not_exists] at h3
    exact iff_of_true rfl ⟨not_lt.mp h1, not_lt.mp h2, h3⟩

/-- A rejected call leaves the checker as it was. -/
theorem check_rejected (h : (check key c now ts nonce).1 ≠ .accepted) :
    (check key c now ts nonce).2 = c := by
  unfold check at h ⊢
  split_ifs at h ⊢ <;> first | rfl | exact absurd rfl h

/-- An accepted call remembers its nonce and collects. -/
theorem check_accepted (h : (check key c now ts nonce).1 = .accepted) :
    (check key c now ts nonce).2 =
      gcLocked { c with nonces := (key ts nonce, now) :: c.nonces } now := by
  unfold check at h ⊢
  split_ifs at h ⊢
  rfl

end Steps

/-- With a clock that never goes back the lower bound stays behind
`now - window`, and every remembered reading is behind `now`. -/
structure Timely (c : Checker) (now : Int) : Prop where
  bound : c.minTs ≤ now - c.window
  dated : ∀ e ∈ c.nonces, e.2 ≤ now

theorem Timely.mono {c : Checker} {now now' : Int} (h : Timely c now) (hle : now ≤ now') :
    Timely c now' where
  bound := by have := h.bound; omega
  dated e he := (h.dated e he).trans hle

theorem timely_new (window now : Int) : Timely (newChecker window now) now where
  bound := le_refl _
  dated := by simp [newChecker]

/-- On a timely checker the collector always moves the bound. -/
theorem gcLocked_eq {c : Checker} {now : Int} (h : Timely c now) :
    gcLocked c now =
      { c with minTs := now - c.window,
               nonces := c.nonces.filter fun e => ¬ e.2 < now - c.window } := by
  unfold gcLocked
  exact if_neg (not_lt.mpr h.bound)

section Calls

variable {i : Impl} {c : Checker} {k : Call}

theorem accepts_iff :
    Accepts i c k ↔
      k.ts ≤ k.now + maxAhead ∧ c.minTs ≤ k.ts ∧ ∀ t, (i.key k.ts k.nonce, t) ∉ c.nonces := by
  rw [Accepts, Impl.check_eq, Verdict.ok_iff, check_accepted_iff]

theorem fresh_iff : Fresh i c k ↔ ∀ t, (i.key k.ts k.nonce, t) ∉ c.nonces := by
  rw [Fresh, Option.isNone_iff_eq_none, List.lookup_eq_none_iff]
  constructor
  · intro h t hmem
    simpa using h _ hmem
  · rintro h ⟨key, t⟩ hmem
    rw [bne_iff_ne]
    rintro rfl
    exact h t hmem

theorem afterCall_of_not_accepts (h : ¬ Accepts i c k) : afterCall i c k = c := by
  rw [Accepts, Impl.check_eq, Verdict.ok_iff] at h
  rw [afterCall, Impl.check_eq]
  exact check_rejected h

/-- An accepted call at a reading that is not behind the earlier ones. -/
theorem afterCall_of_accepts (ht : Timely c k.now) (h : Accepts i c k) :
    afterCall i c k =
      { c with minTs := k.now - c.window,
               nonces := ((i.key k.ts k.nonce, k.now) :: c.nonces).filter
                 fun e => ¬ e.2 < k.now - c.window } := by
  rw [Accepts, Impl.check_eq, Verdict.ok_iff] at h
  rw [afterCall, Impl.check_eq, check_accepted h]
  refine gcLocked_eq ⟨ht.bound, ?_⟩
  intro e he
  rcases List.mem_cons.mp he with rfl | he
  · exact le_refl _
  · exact ht.dated e he

/-- A call never changes the window. -/
theorem afterCall_window (ht : Timely c k.now) : (afterCall i c k).window = c.window := by
  by_cases h : Accepts i c k
  · rw [afterCall_of_accepts ht h]
  · rw [afterCall_of_not_accepts h]

theorem timely_afterCall (ht : Timely c k.now) : Timely (afterCall i c k) k.now := by
  by_cases h : Accepts i c k
  · rw [afterCall_of_accepts ht h]
    refine ⟨le_refl _, fun e he => ?_⟩
    rcases List.mem_cons.mp (List.mem_filter.mp he).1 with rfl | he
    · exact le_refl _
    · exact ht.dated e he
  · rw [afterCall_of_not_accepts h]
    exact ht

/-- The pair of an earlier call can no longer be accepted: its timestamp is
below the window, or its nonce is remembered under a reading that the window
leaves behind only together with the timestamp. -/
def Blocked (i : Impl) (ts : Int) (nonce : Bytes) (c : Checker) : Prop :=
  ts < c.minTs ∨ ∃ t, ts ≤ t ∧ (i.key ts nonce, t) ∈ c.nonces

theorem Blocked.not_accepts {ts : Int} {nonce : Bytes} (hb : Blocked i ts nonce c)
    (hpair : k.pair = (ts, nonce)) : ¬ Accepts i c k := by
  obtain ⟨rfl, rfl⟩ := Prod.mk.inj hpair
  rw [accepts_iff]
  rintro ⟨-, hmin, hnew⟩
  rcases hb with hlt | ⟨t, -, hmem⟩
  · omega
  · exact hnew t hmem

/-- Blocked pairs stay blocked: the collector forgets a nonce only when it moves
the bound past the reading it was remembered under. -/
theorem Blocked.afterCall {ts : Int} {nonce : Bytes} (hb : Blocked i ts nonce c)
    (ht : Timely c k.now) : Blocked i ts nonce (afterCall i c k) := by
  by_cases h : Accepts i c k
  · rw [afterCall_of_accepts ht h]
    rcases hb with hlt | ⟨t, hle, hmem⟩
    · left
      have := ht.bound
      show ts < k.now - c.window
      omega
    · by_cases hold : t < k.now - c.window
      · left
        show ts < k.now - c.window
        omega
      · right
        exact ⟨t, hle, List.mem_filter.mpr ⟨List.mem_cons_of_mem _ hmem, by simpa using hold⟩⟩
  · rw [afterCall_of_not_accepts h]
    exact hb

/-- An accepted call that does no harm blocks its own pair. -/
theorem blocked_of_safe (ht : Timely c k.now) (h : Accepts i c k) (hsafe : SafeCall i c k) :
    Blocked i k.ts k.nonce (afterCall i c k) := by
  obtain ⟨hmax, -, hnew⟩ := accepts_iff.mp h
  have hts : SafeTimestamp c.window k := hsafe.resolve_right fun hold => hold (fresh_iff.mpr hnew)
  rw [afterCall_of_accepts ht h]
  by_cases hlt : k.ts < k.now - c.window
  · exact Or.inl hlt
  · have hle : k.ts ≤ k.now := by
      rcases hts with hle | hfar | hbelow
      · exact hle
      · omega
      · exact absurd hbelow hlt
    by_cases hgone : k.now < k.now - c.window
    · left
      show k.ts < k.now - c.window
      omega
    · exact Or.inr ⟨k.now, hle, List.mem_filter.mpr ⟨List.mem_cons_self, by simpa using hgone⟩⟩

/-- A call that may do harm is accepted. -/
theorem accepts_of_not_safeCall (ht : Timely c k.now) (hbad : ¬ SafeCall i c k) :
    Accepts i c k := by
  rw [SafeCall, not_or, not_not, SafeTimestamp, not_or, not_or] at hbad
  obtain ⟨⟨-, hmax, hinside⟩, hfresh⟩ := hbad
  have := ht.bound
  exact accepts_iff.mpr ⟨not_lt.mp hmax, by omega, fresh_iff.mp hfresh⟩

end Calls

/-! ## Sequences -/

section Sequences

variable {i : Impl} {c : Checker} {k : Call} {ks : List Call} {t : Int}

/-- No later call gets a blocked pair accepted. -/
theorem Blocked.not_mem_accepted {ts : Int} {nonce : Bytes} (hb : Blocked i ts nonce c)
    (ht : Timely c t) (hclock : ClockFrom t ks) : (ts, nonce) ∉ accepted i c ks := by
  induction ks generalizing c t with
  | nil => exact List.not_mem_nil
  | cons k ks ih =>
    have ht' := ht.mono hclock.1
    have hrest := ih (hb.afterCall ht') (timely_afterCall ht') hclock.2
    unfold accepted
    split_ifs with hacc
    · rw [List.mem_cons, not_or]
      exact ⟨fun hpair => hb.not_accepts hpair.symm hacc, hrest⟩
    · exact hrest

/-- If no call may do harm, no pair is accepted twice. -/
theorem accepted_nodup (ht : Timely c t) (hclock : ClockFrom t ks)
    (hsafe : RunOk (next i) (SafeCall i) c ks) : (accepted i c ks).Nodup := by
  induction ks generalizing c t with
  | nil => exact List.nodup_nil
  | cons k ks ih =>
    have ht' := ht.mono hclock.1
    have hrest := ih (timely_afterCall ht') hclock.2 (hsafe.2 _ rfl)
    unfold accepted
    split_ifs with hacc
    · rw [List.nodup_cons]
      have hb := blocked_of_safe ht' hacc hsafe.1
      exact ⟨hb.not_mem_accepted (timely_afterCall ht') hclock.2, hrest⟩
    · exact hrest

/-- A nonce whose key is in none of finitely many places. -/
theorem exists_fresh_nonce (i : Impl) (ts : Int) (keys : List Bytes) :
    ∃ nonce, i.key ts nonce ∉ keys := by
  have hinf := Set.infinite_range_of_injective (i.key_injective ts)
  obtain ⟨_, ⟨nonce, rfl⟩, hnew⟩ := hinf.exists_notMem_finset keys.toFinset
  exact ⟨nonce, by simpa using hnew⟩

/-- A call that may do harm can be replayed. With a negative window the call forgets its own nonce at once. Otherwise the replay
waits until the window has passed the clock reading of the call but not its
timestamp, and lets another call trigger the collector. -/
theorem replay_of_unsafe (ht : Timely c k.now) (hbad : ¬ SafeCall i c k) :
    ∃ more, ClockFrom k.now more ∧ k.pair ∈ accepted i (afterCall i c k) more := by
  have hacc := accepts_of_not_safeCall ht hbad
  have hmax := (accepts_iff.mp hacc).1
  rw [SafeCall, not_or, SafeTimestamp, not_or, not_or, not_le, not_lt, not_lt] at hbad
  obtain ⟨⟨hahead, -, hinside⟩, -⟩ := hbad
  have heq := afterCall_of_accepts ht hacc
  have hdated := (timely_afterCall (i := i) ht).dated
  by_cases hw : c.window < 0
  · refine ⟨[k], ⟨le_refl _, trivial⟩, ?_⟩
    have hagain : Accepts i (afterCall i c k) k := by
      rw [accepts_iff]
      refine ⟨hmax, by rw [heq]; exact hinside, fun t hmem => ?_⟩
      have hle := hdated _ hmem
      rw [heq, List.mem_filter] at hmem
      have hkept : ¬ t < k.now - c.window := by simpa using hmem.2
      have : t ≤ k.now := hle
      omega
    simp [accepted, hagain]
  · obtain ⟨nonce, hfresh⟩ := exists_fresh_nonce i (k.ts + c.window)
      (i.key k.ts k.nonce :: (afterCall i c k).nonces.map Prod.fst)
    rw [List.mem_cons, not_or] at hfresh
    let f : Call := ⟨k.ts + c.window, k.ts + c.window, nonce⟩
    let again : Call := ⟨k.ts + c.window, k.ts, k.nonce⟩
    have hf : Timely (afterCall i c k) f.now :=
      (timely_afterCall ht).mono (show k.now ≤ k.ts + c.window by omega)
    have hfacc : Accepts i (afterCall i c k) f := by
      rw [accepts_iff]
      refine ⟨?_, ?_, fun t hmem => hfresh.2 ?_⟩
      · show k.ts + c.window ≤ k.ts + c.window + maxAhead
        simp [maxAhead]
      · rw [heq]
        show k.now - c.window ≤ k.ts + c.window
        omega
      · exact List.mem_map.mpr ⟨_, hmem, rfl⟩
    have hfeq := afterCall_of_accepts hf hfacc
    have hwin : (afterCall i c k).window = c.window := afterCall_window ht
    have hagain : Accepts i (afterCall i (afterCall i c k) f) again := by
      rw [accepts_iff, hfeq]
      refine ⟨?_, ?_, fun t hmem => ?_⟩
      · show k.ts ≤ k.ts + c.window + maxAhead
        simp only [maxAhead]
        omega
      · show k.ts + c.window - (afterCall i c k).window ≤ k.ts
        omega
      · rw [List.mem_filter, List.mem_cons] at hmem
        rcases hmem.1 with heqk | hold
        · exact hfresh.1 (congrArg Prod.fst heqk).symm
        · -- everything remembered before lies before the new bound
          have hle : t ≤ k.now := hdated _ hold
          have hkept : ¬ t < k.ts + c.window - (afterCall i c k).window := by
            simpa using hmem.2
          omega
    refine ⟨[f, again], ⟨show k.now ≤ k.ts + c.window by omega, le_refl _, trivial⟩, ?_⟩
    have hpair : again.pair = k.pair := rfl
    simp [accepted, hfacc, hagain, hpair]

theorem timely_after (ht : Timely c t) (hclock : ClockFrom t (ks ++ [k])) :
    Timely (after i c ks) k.now := by
  induction ks generalizing c t with
  | nil => exact ht.mono hclock.1
  | cons k' ks ih => exact ih (timely_afterCall (ht.mono hclock.1)) hclock.2

/-- After any calls: the pair of the next call is refused from then on exactly
when that call does no harm. -/
theorem refused_after_iff (ht : Timely c t) (hclock : ClockFrom t (ks ++ [k])) :
    (Accepts i (after i c ks) k →
      ∀ more, ClockFrom k.now more → k.pair ∉ accepted i (after i c (ks ++ [k])) more) ↔
      SafeCall i (after i c ks) k := by
  have ht' : Timely (after i c ks) k.now := timely_after ht hclock
  have hlast : after i c (ks ++ [k]) = afterCall i (after i c ks) k := by
    simp [after, List.foldl_append]
  rw [hlast]
  constructor
  · intro hrefused
    by_contra hbad
    obtain ⟨more, hmore, hmem⟩ := replay_of_unsafe ht' hbad
    exact hrefused (accepts_of_not_safeCall ht' hbad) more hmore hmem
  · intro hsafe hacc more hmore
    exact (blocked_of_safe ht' hacc hsafe).not_mem_accepted (timely_afterCall ht') hmore

end Sequences

theorem timely_implNew (i : Impl) (window start : Int) : Timely (i.new window start) start := by
  cases i with
  | cpp => exact timely_new _ start
  | go => exact timely_new _ start

/-- No pair is accepted twice in a sequence of calls that do no harm; and a call
does no harm exactly when its pair, if accepted, is refused ever after. -/
theorem replay_exact (i : Impl) (window start : Int) :
    (∀ ks, ClockFrom start ks → RunOk (next i) (SafeCall i) (i.new window start) ks →
      (accepted i (i.new window start) ks).Nodup) ∧
    (∀ ks k, ClockFrom start (ks ++ [k]) →
      ((Accepts i (after i (i.new window start) ks) k → ∀ more, ClockFrom k.now more →
          k.pair ∉ accepted i (after i (i.new window start) (ks ++ [k])) more) ↔
        SafeCall i (after i (i.new window start) ks) k)) := by
  have hnew := timely_implNew i window start
  exact ⟨fun ks hclock hsafe => accepted_nodup hnew hclock hsafe,
    fun ks k hclock => refused_after_iff hnew hclock⟩

/-- Three calls at 0 s, 1 s and 2 s, none with a timestamp ahead of the clock:
the third repeats the first and is refused. -/
def plainCalls : List Call :=
  [⟨0, 0, [1]⟩, ⟨1000000000, 500000000, [2]⟩, ⟨2000000000, 0, [1]⟩]

theorem replay_exact_plainCalls :
    (ClockFrom 0 plainCalls ∧ RunOk (next .cpp) (SafeCall .cpp) (Cpp.new 5000 0) plainCalls) ∧
      (accepted .cpp (Cpp.new 5000 0) plainCalls).Nodup ∧
      ∀ more, ClockFrom 0 more → ((0 : Int), ([1] : Bytes)) ∉
        accepted .cpp (after .cpp (Cpp.new 5000 0) [⟨0, 0, [1]⟩]) more := by
  have hclock : ClockFrom 0 plainCalls := by decide
  have hsafe : RunOk (next .cpp) (SafeCall .cpp) (Cpp.new 5000 0) plainCalls := by decide
  have hfirst : ClockFrom 0 ([] ++ [⟨0, 0, [1]⟩]) := by decide
  refine ⟨⟨hclock, hsafe⟩, (replay_exact .cpp 5000 0).1 plainCalls hclock hsafe, ?_⟩
  exact ((replay_exact .cpp 5000 0).2 [] ⟨0, 0, [1]⟩ hfirst).mpr (by decide)
    (by decide)

/-- With a 5 s window, a timestamp 10 s ahead of the clock, a collecting call at
15 s and the first pair once more at 15 s. -/
def aheadCalls : List Call :=
  [⟨0, 10000000000, [1]⟩, ⟨15000000000, 15000000000, [2]⟩, ⟨15000000000, 10000000000, [1]⟩]

/-- Both checkers accept the pair of the first call again. -/
theorem aheadCalls_accepted_twice :
    ClockFrom 0 aheadCalls ∧ ¬ (accepted .cpp (Impl.new .cpp 5000 0) aheadCalls).Nodup ∧
      ¬ (accepted .go (Impl.new .go 5000000000 0) aheadCalls).Nodup := by
  decide

end Gmaker.Replay
