import Gmaker.Lib.Expiring
import Gmaker.Lib.Machine
import Gmaker.Lib.Threads

/-!
# Gmaker.Login.RefreshToken — refresh tokens and who redeems them

A login and a refresh both draw a new pair of tokens and write it to Redis: the access token
under `token:<id>`, the refresh token under `refresh:<id>`. A refresh first reads the second key
and compares. The commands of any number of requests interleave; each is executed once or not at
all, and time passes in between. No refresh token is drawn twice.

A refresh token leads to one new pair at most in exactly those runs in which a matching read
comes when no request with the same token that was let through before has its write still to
come, or has failed to write (`LoginService.singleUse_iff`).
-/

namespace Gmaker.Login

open Gmaker.Lib

/-! ## The service -/

/-- Where a request is. -/
inductive Stage where
  /-- A refresh, before `GetRefreshToken`. -/
  | reading
  | settingToken
  | settingRefresh
  /-- The new pair is answered; whether the refresh token was written. -/
  | answered (written : Bool)
  /-- `invalid refresh token`. -/
  | refused
deriving DecidableEq

/-- A login whose password was right, or a refresh. -/
structure Request where
  playerId : ℕ
  /-- `req.RefreshToken`; a login has none. -/
  presented : Option String
  /-- The access token and the refresh token that were drawn for it. -/
  pair : Option (String × String)
  stage : Stage
deriving DecidableEq

/-- The refresh token that the request has drawn. -/
def Request.minted (r : Request) : Option String := r.pair.map Prod.snd

/-- The refresh token that has led to a new pair. -/
def Request.spent (r : Request) : Option String := if r.pair.isSome then r.presented else none

/-- The requests, and what is in Redis. -/
structure LoginService where
  /-- In seconds. -/
  now : ℕ
  /-- `token:<id>`. -/
  tokens : ℕ → Key String
  /-- `refresh:<id>`. -/
  refreshes : ℕ → Key String
  requests : List Request

inductive LoginEvent where
  /-- A login draws its tokens. -/
  | login (playerId : ℕ) (access refresh : String)
  | refresh (playerId : ℕ) (token : String)
  /-- `GetRefreshToken` is executed or fails; if the token is right, a pair is drawn. -/
  | get (i : ℕ) (ok : Bool) (access refresh : String)
  /-- `SetToken` is executed, or fails. -/
  | setToken (i : ℕ) (executed : Bool)
  /-- `SetRefreshToken` is executed, or fails. -/
  | setRefresh (i : ℕ) (executed : Bool)
  | elapse (seconds : ℕ)
deriving DecidableEq

namespace LoginService

/-- Nobody has logged in yet. -/
def new : LoginService := ⟨0, fun _ => none, fun _ => none, []⟩

/-- No request has drawn the refresh token. -/
def Fresh (s : LoginService) (refresh : String) : Prop :=
  ∀ r ∈ s.requests, r.minted ≠ some refresh

instance (s : LoginService) (refresh : String) : Decidable (s.Fresh refresh) :=
  inferInstanceAs (Decidable (∀ r ∈ s.requests, _))

/-- What is stored under `refresh:<id>` is what the request presents. -/
def Matches (s : LoginService) (r : Request) : Prop :=
  ((s.refreshes r.playerId).present s.now).map Timed.value = r.presented ∧ r.presented ≠ none

instance (s : LoginService) (r : Request) : Decidable (s.Matches r) :=
  inferInstanceAs (Decidable (_ ∧ _))

/-- A request goes on. -/
def put (s : LoginService) (i : ℕ) (r : Request) : LoginService :=
  { s with requests := s.requests.set i r }

def next (s : LoginService) : LoginEvent → Option LoginService
  | .login playerId access refresh =>
    if s.Fresh refresh then
      some { s with requests := s.requests ++ [⟨playerId, none, some (access, refresh), .settingToken⟩] }
    else none
  | .refresh playerId token =>
    some { s with requests := s.requests ++ [⟨playerId, some token, none, .reading⟩] }
  | .get i ok access refresh => (s.requests[i]?).bind fun r =>
    if r.stage = .reading then
      if ok ∧ s.Matches r then
        if s.Fresh refresh then
          some (s.put i { r with pair := some (access, refresh), stage := .settingToken })
        else none
      else some (s.put i { r with stage := .refused })
    else none
  | .setToken i executed => (s.requests[i]?).bind fun r => r.pair.bind fun p =>
    if r.stage = .settingToken then
      some { s.put i { r with stage := .settingRefresh } with
        tokens := if executed then
            Function.update s.tokens r.playerId (some ⟨p.1, some (s.now + 15 * 60)⟩)
          else s.tokens }
    else none
  | .setRefresh i executed => (s.requests[i]?).bind fun r => r.pair.bind fun p =>
    if r.stage = .settingRefresh then
      some { s.put i { r with stage := .answered executed } with
        refreshes := if executed then
            Function.update s.refreshes r.playerId (some ⟨p.2, some (s.now + 7 * 24 * 3600)⟩)
          else s.refreshes }
    else none
  | .elapse seconds => some { s with now := s.now + seconds }

/-- Each refresh token has led to one new pair at most. -/
def SingleUse (s : LoginService) : Prop := KeysUnique Request.spent s.requests

/-- The condition on a matching read: of the requests that were let through with the same token
each has written its own. -/
def Exclusive (s : LoginService) : LoginEvent → Prop
  | .get i ok _ refresh => ok = true → s.Fresh refresh → ∀ r ∈ s.requests[i]?,
    r.stage = .reading → s.Matches r →
      ∀ r' ∈ s.requests, r'.spent = r.presented → r'.stage = .answered true
  | _ => True

instance (s : LoginService) (e : LoginEvent) : Decidable (s.Exclusive e) := by
  unfold Exclusive
  split <;> infer_instance

/-! ## Where a token is -/

/-- The request that has drawn the token is over and has written it under its player. -/
def WrittenFor (s : LoginService) (playerId : ℕ) (token : String) : Prop :=
  ∃ r ∈ s.requests, r.minted = some token ∧ r.playerId = playerId ∧ r.stage = .answered true

/-- The token is under a key. -/
def Stored (s : LoginService) (playerId : ℕ) (token : String) : Prop :=
  ∃ t ∈ s.refreshes playerId, t.value = token

/-- What holds of every run. -/
structure Inv (s : LoginService) : Prop where
  unique : KeysUnique Request.minted s.requests
  stored : ∀ playerId token, s.Stored playerId token → s.WrittenFor playerId token
  spent : ∀ r ∈ s.requests, ∀ token, r.spent = some token → s.WrittenFor r.playerId token
  /-- A token whose request has written another is gone for good. -/
  gone : ∀ r ∈ s.requests, ∀ token, r.spent = some token → r.stage = .answered true →
    ∀ playerId, ¬ s.Stored playerId token
  unread : ∀ r ∈ s.requests, r.stage = .reading → r.pair = none

variable {s s' : LoginService} {r r' : Request} {i j playerId : ℕ} {token access refresh : String}
variable {stage : Stage} {e : LoginEvent}

theorem new_inv : Inv new where
  unique := keysUnique_nil
  stored := by
    rintro _ _ ⟨t, ht, -⟩
    cases ht
  spent := fun r hr => absurd hr List.not_mem_nil
  gone := fun r hr => absurd hr List.not_mem_nil
  unread := fun r hr => absurd hr List.not_mem_nil

/-- The request that has drawn a token is one. -/
theorem Inv.eq_of_minted (h : Inv s) (hr : r ∈ s.requests) (hr' : r' ∈ s.requests)
    (hm : r.minted = some token) (hm' : r'.minted = some token) : r = r' := by
  obtain ⟨i, hi⟩ := List.mem_iff_getElem?.mp hr
  obtain ⟨j, hj⟩ := List.mem_iff_getElem?.mp hr'
  have hij := h.unique i j r r' token hi hj hm hm'
  subst hij
  exact Option.some.inj (hi.symm.trans hj)

/-- A token that is still to be written is not stored, and nobody has been let through with it. -/
theorem Inv.pending (h : Inv s) (hr : r ∈ s.requests) (hm : r.minted = some token)
    (hstage : r.stage ≠ .answered true) : ¬ s.WrittenFor playerId token := by
  rintro ⟨r', hr', hm', -, hdone⟩
  cases h.eq_of_minted hr hr' hm hm'
  exact hstage hdone

/-- What is matched is stored. -/
theorem stored_of_matches (h : s.Matches r) : ∃ token, r.presented = some token ∧
    s.Stored r.playerId token := by
  obtain ⟨hmap, hsome⟩ := h
  obtain ⟨token, htoken⟩ := Option.ne_none_iff_exists'.mp hsome
  rw [htoken] at hmap
  obtain ⟨t, ht, hvalue⟩ := Option.map_eq_some_iff.mp hmap
  exact ⟨token, htoken, t, (Key.present_eq_some.mp ht).1, hvalue⟩

/-- What was written stays written while requests keep what they have drawn and are over. -/
theorem WrittenFor.mono (h : s.WrittenFor playerId token)
    (hkeep : ∀ r ∈ s.requests, r.stage = .answered true → r ∈ s'.requests) :
    s'.WrittenFor playerId token := by
  obtain ⟨r, hr, hm, hp, hdone⟩ := h
  exact ⟨r, hkeep r hr hdone, hm, hp, hdone⟩

/-! ## The steps -/

/-- A request that is not the one that goes on stays. -/
theorem mem_set_of_ne {l : List Request} (hi : l[i]? = some r) (hr : r' ∈ l) (hne : r' ≠ r)
    (r₁ : Request) : r' ∈ l.set i r₁ := by
  obtain ⟨j, hj⟩ := List.mem_iff_getElem?.mp hr
  refine List.mem_iff_getElem?.mpr ⟨j, ?_⟩
  rw [getElem?_set_at hi, if_neg, hj]
  rintro rfl
  exact hne (Option.some.inj (hj.symm.trans hi))

/-- What is over stays when a request goes on. -/
theorem mem_put_of_answered (hi : s.requests[i]? = some r) (hstage : r.stage ≠ .answered true)
    (r₁ : Request) : ∀ r' ∈ s.requests, r'.stage = .answered true → r' ∈ (s.put i r₁).requests := by
  intro r' hr' hdone
  refine mem_set_of_ne hi hr' ?_ r₁
  rintro rfl
  exact hstage hdone

/-- Tokens stay apart when a request goes on, if it draws none or a fresh one. -/
theorem Inv.unique_put (h : Inv s) (hi : s.requests[i]? = some r) {r₁ : Request}
    (hmint : r₁.minted = r.minted ∨ ∃ x, r₁.minted = some x ∧ s.Fresh x) :
    KeysUnique Request.minted (s.put i r₁).requests := by
  refine h.unique.set hi fun x hx j b hj hb hbx => ?_
  rcases hmint with hsame | ⟨y, hy, hfresh⟩
  · rw [hsame] at hx
    exact hj (h.unique j i b r x hb hi hbx hx)
  · cases hy.symm.trans hx
    exact hfresh b (List.mem_of_getElem? hb) hbx

/-- A request goes on without a write of its refresh token. -/
theorem Inv.put (h : Inv s) (hi : s.requests[i]? = some r) {r₁ : Request}
    (hstage : r.stage ≠ .answered true)
    (hmint : r₁.minted = r.minted ∨ ∃ x, r₁.minted = some x ∧ s.Fresh x)
    (hspent : ∀ x, r₁.spent = some x → s.WrittenFor r₁.playerId x)
    (hread : r₁.stage ≠ .reading) (hdone : r₁.stage ≠ .answered true) : Inv (s.put i r₁) := by
  have hkeep := mem_put_of_answered hi hstage r₁
  refine ⟨h.unique_put hi hmint, fun pid x hx => (h.stored pid x hx).mono hkeep, ?_, ?_, ?_⟩
  · intro r' hr' x hx
    rcases List.mem_or_eq_of_mem_set hr' with hold | rfl
    · exact (h.spent r' hold x hx).mono hkeep
    · exact (hspent x hx).mono hkeep
  · intro r' hr' x hx hover pid hstored
    rcases List.mem_or_eq_of_mem_set hr' with hold | rfl
    · exact h.gone r' hold x hx hover pid hstored
    · exact hdone hover
  · intro r' hr' hreading
    rcases List.mem_or_eq_of_mem_set hr' with hold | rfl
    · exact h.unread r' hold hreading
    · exact absurd hreading hread

/-- What is under the keys after a refresh token was written. -/
theorem stored_update {d : Option ℕ} {t : LoginService} {pid : ℕ} {x : String}
    (ht : t.refreshes = Function.update s.refreshes playerId (some ⟨token, d⟩))
    (h : t.Stored pid x) : (pid = playerId ∧ x = token) ∨ pid ≠ playerId ∧ s.Stored pid x := by
  obtain ⟨v, hv, rfl⟩ := h
  rw [ht, Function.update_apply] at hv
  split_ifs at hv with hpid
  · cases hv
    exact .inl ⟨hpid, rfl⟩
  · exact .inr ⟨hpid, v, hv, rfl⟩

/-- A request writes its refresh token: the one that it was let through with is gone. -/
theorem Inv.write (h : Inv s) (hi : s.requests[i]? = some r) (hm : r.minted = some token)
    (hstage : r.stage = .settingRefresh) {d : Option ℕ} :
    Inv { s.put i { r with stage := .answered true } with
      refreshes := Function.update s.refreshes r.playerId (some ⟨token, d⟩) } := by
  have hr : r ∈ s.requests := List.mem_of_getElem? hi
  have hne : r.stage ≠ .answered true := by
    rw [hstage]
    exact Stage.noConfusion
  have hkeep := mem_put_of_answered hi hne { r with stage := .answered true }
  have hself : ({ r with stage := .answered true } : Request) ∈
      s.requests.set i { r with stage := .answered true } :=
    List.mem_set (List.getElem?_eq_some_iff.mp hi).1 _
  have hpending {pid : ℕ} : ¬ s.WrittenFor pid token := h.pending hr hm hne
  refine ⟨h.unique_put hi (.inl rfl), fun pid x hx => ?_, fun r' hr' x hx => ?_,
    fun r' hr' x hx hdone pid hstored => ?_, fun r' hr' hreading => ?_⟩
  · rcases stored_update rfl hx with ⟨rfl, rfl⟩ | ⟨-, hold⟩
    · exact ⟨_, hself, hm, rfl, rfl⟩
    · exact (h.stored pid x hold).mono hkeep
  · rcases List.mem_or_eq_of_mem_set hr' with hold | rfl
    · exact (h.spent r' hold x hx).mono hkeep
    · exact (h.spent r hr x hx).mono hkeep
  · -- the new token has let nobody through, and the others are where they were
    rcases stored_update rfl hstored with ⟨rfl, rfl⟩ | ⟨hpid, hold⟩
    · rcases List.mem_or_eq_of_mem_set hr' with hin | rfl
      · exact hpending (h.spent r' hin x hx)
      · exact hpending (h.spent r hr x hx)
    · rcases List.mem_or_eq_of_mem_set hr' with hin | rfl
      · exact h.gone r' hin x hx hdone pid hold
      · -- the token that it was let through with is only under its own player
        obtain ⟨r₁, hr₁, hm₁, rfl, -⟩ := h.stored pid x hold
        obtain ⟨r₂, hr₂, hm₂, hp₂, -⟩ := h.spent r hr x hx
        cases h.eq_of_minted hr₁ hr₂ hm₁ hm₂
        exact hpid hp₂
  · rcases List.mem_or_eq_of_mem_set hr' with hold | rfl
    · exact h.unread r' hold hreading
    · cases hreading

/-- A request arrives. -/
theorem Inv.arrive (h : Inv s) (hmint : ∀ x, r.minted = some x → s.Fresh x)
    (hspent : r.spent = none) (hread : r.stage = .reading → r.pair = none) :
    Inv { s with requests := s.requests ++ [r] } := by
  have hkeep : ∀ r' ∈ s.requests, r'.stage = .answered true → r' ∈ s.requests ++ [r] :=
    fun r' hr' _ => List.mem_append_left _ hr'
  refine ⟨?_, fun pid x hx => (h.stored pid x hx).mono hkeep, fun r' hr' x hx => ?_,
    fun r' hr' x hx hdone pid hstored => ?_, fun r' hr' hreading => ?_⟩
  · intro i j a b x ha hb hax hbx
    rw [getElem?_append_singleton] at ha hb
    split_ifs at ha hb with hi hj hj
    · rw [hi, hj]
    · cases ha
      exact absurd hbx (hmint x hax b (List.mem_of_getElem? hb))
    · cases hb
      exact absurd hax (hmint x hbx a (List.mem_of_getElem? ha))
    · exact h.unique i j a b x ha hb hax hbx
  · rcases List.mem_append.mp hr' with hold | hnew
    · exact (h.spent r' hold x hx).mono hkeep
    · rw [List.mem_singleton.mp hnew, hspent] at hx
      cases hx
  · rcases List.mem_append.mp hr' with hold | hnew
    · exact h.gone r' hold x hx hdone pid hstored
    · rw [List.mem_singleton.mp hnew, hspent] at hx
      cases hx
  · rcases List.mem_append.mp hr' with hold | hnew
    · exact h.unread r' hold hreading
    · rw [List.mem_singleton.mp hnew] at hreading ⊢
      exact hread hreading

/-- What a step does. -/
inductive Step (s : LoginService) : LoginEvent → LoginService → Prop
  | login {playerId : ℕ} {access refresh : String} (hfresh : s.Fresh refresh) :
      Step s (.login playerId access refresh)
        { s with requests := s.requests ++ [⟨playerId, none, some (access, refresh), .settingToken⟩] }
  | refresh {playerId : ℕ} {token : String} :
      Step s (.refresh playerId token)
        { s with requests := s.requests ++ [⟨playerId, some token, none, .reading⟩] }
  | letThrough {i : ℕ} {access refresh : String} {r : Request} (hi : s.requests[i]? = some r)
      (hstage : r.stage = .reading) (hmatch : s.Matches r) (hfresh : s.Fresh refresh) :
      Step s (.get i true access refresh)
        (s.put i { r with pair := some (access, refresh), stage := .settingToken })
  | refuse {i : ℕ} {ok : Bool} {access refresh : String} {r : Request}
      (hi : s.requests[i]? = some r) (hstage : r.stage = .reading)
      (hno : ¬ (ok = true ∧ s.Matches r)) :
      Step s (.get i ok access refresh) (s.put i { r with stage := .refused })
  | setToken {i : ℕ} {executed : Bool} {r : Request} {tokens : ℕ → Key String}
      (hi : s.requests[i]? = some r) (hstage : r.stage = .settingToken) :
      Step s (.setToken i executed) { s.put i { r with stage := .settingRefresh } with tokens := tokens }
  | setRefresh {i : ℕ} {r : Request} {token : String} (hi : s.requests[i]? = some r)
      (hstage : r.stage = .settingRefresh) (hm : r.minted = some token) :
      Step s (.setRefresh i true) { s.put i { r with stage := .answered true } with
        refreshes := Function.update s.refreshes r.playerId
          (some ⟨token, some (s.now + 7 * 24 * 3600)⟩) }
  | notSet {i : ℕ} {r : Request} (hi : s.requests[i]? = some r)
      (hstage : r.stage = .settingRefresh) :
      Step s (.setRefresh i false) (s.put i { r with stage := .answered false })
  | elapse {seconds : ℕ} : Step s (.elapse seconds) { s with now := s.now + seconds }

theorem step_of_next (h : s.next e = some s') : Step s e s' := by
  cases e with
  | login playerId access refresh =>
    obtain ⟨hfresh, heq⟩ := Option.ite_none_right_eq_some.mp h
    cases heq
    exact .login hfresh
  | refresh playerId token =>
    cases h
    exact .refresh
  | get i ok access refresh =>
    obtain ⟨r, hi, hif⟩ := Option.bind_eq_some_iff.mp h
    split_ifs at hif with hstage hmatch hfresh
    · cases hif
      obtain ⟨rfl, hmatch⟩ := hmatch
      exact .letThrough hi hstage hmatch hfresh
    · cases hif
      exact .refuse hi hstage hmatch
  | setToken i executed =>
    obtain ⟨r, hi, hbind⟩ := Option.bind_eq_some_iff.mp h
    obtain ⟨p, -, hif⟩ := Option.bind_eq_some_iff.mp hbind
    obtain ⟨hstage, heq⟩ := Option.ite_none_right_eq_some.mp hif
    cases heq
    exact .setToken hi hstage
  | setRefresh i executed =>
    obtain ⟨r, hi, hbind⟩ := Option.bind_eq_some_iff.mp h
    obtain ⟨p, hp, hif⟩ := Option.bind_eq_some_iff.mp hbind
    obtain ⟨hstage, heq⟩ := Option.ite_none_right_eq_some.mp hif
    cases heq
    cases executed with
    | true =>
      refine .setRefresh hi hstage ?_
      rw [Request.minted, hp]
      rfl
    | false => exact .notSet hi hstage
  | elapse seconds =>
    cases h
    exact .elapse

/-- Every step keeps the invariant. -/
theorem Inv.step (h : Inv s) (hs : Step s e s') : Inv s' := by
  cases hs with
  | login hfresh =>
    refine h.arrive (fun x hx => ?_) rfl Stage.noConfusion
    cases hx
    exact hfresh
  | refresh =>
    refine h.arrive (fun x hx => ?_) rfl fun _ => rfl
    cases hx
  | @letThrough i access refresh r hi hstage hmatch hfresh =>
    refine h.put hi (by rw [hstage]; exact Stage.noConfusion) (.inr ⟨refresh, rfl, hfresh⟩) ?_
      Stage.noConfusion Stage.noConfusion
    intro x hx
    obtain ⟨token, hpresented, hstored⟩ := stored_of_matches hmatch
    cases hpresented.symm.trans hx
    exact h.stored _ _ hstored
  | @refuse i ok access refresh r hi hstage hno =>
    refine h.put hi (by rw [hstage]; exact Stage.noConfusion) (.inl rfl) ?_ Stage.noConfusion
      Stage.noConfusion
    exact fun x hx => h.spent r (List.mem_of_getElem? hi) x hx
  | @setToken i executed r tokens hi hstage =>
    have hput : Inv (s.put i { r with stage := .settingRefresh }) :=
      h.put hi (by rw [hstage]; exact Stage.noConfusion) (.inl rfl)
        (fun x hx => h.spent r (List.mem_of_getElem? hi) x hx) Stage.noConfusion Stage.noConfusion
    exact ⟨hput.unique, hput.stored, hput.spent, hput.gone, hput.unread⟩
  | setRefresh hi hstage hm => exact h.write hi hm hstage
  | @notSet i r hi hstage =>
    refine h.put hi (by rw [hstage]; exact Stage.noConfusion) (.inl rfl) ?_ Stage.noConfusion ?_
    · exact fun x hx => h.spent r (List.mem_of_getElem? hi) x hx
    · intro hdone
      cases hdone
  | elapse => exact ⟨h.unique, h.stored, h.spent, h.gone, h.unread⟩

/-! ## Single use -/

/-- A step keeps tokens single-use exactly if it meets the condition. -/
theorem Inv.singleUse_step_iff (h : Inv s) (huse : s.SingleUse) (hs : Step s e s') :
    s'.SingleUse ↔ s.Exclusive e := by
  cases hs with
  | login => exact iff_of_true (huse.append rfl) trivial
  | refresh => exact iff_of_true (huse.append rfl) trivial
  | @letThrough i access refresh r hi hstage hmatch hfresh =>
    obtain ⟨token, hpresented, hstored⟩ := stored_of_matches hmatch
    have hnone : r.spent = none := by
      rw [Request.spent, h.unread r (List.mem_of_getElem? hi) hstage]
      rfl
    have hspent : Request.spent { r with pair := some (access, refresh), stage := .settingToken }
        = some token := hpresented
    constructor
    · -- another request with the token would make it two
      intro huse' _ _ r₁ hr₁ _ _ r' hr' hr'spent
      cases hi.symm.trans hr₁
      rw [hpresented] at hr'spent
      obtain ⟨j, hj⟩ := List.mem_iff_getElem?.mp hr'
      have hji : j ≠ i := by
        rintro rfl
        cases hi.symm.trans hj
        rw [hnone] at hr'spent
        cases hr'spent
      refine absurd (huse' j i r' _ token ?_ ?_ hr'spent hspent) hji
      · show (s.requests.set i _)[j]? = _
        rw [getElem?_set_at hi, if_neg hji, hj]
      · show (s.requests.set i _)[i]? = _
        rw [getElem?_set_at hi, if_pos rfl]
    · -- a request that has written left nothing to match
      intro hexcl
      refine huse.set hi fun x hx j b _ hb hbx => ?_
      cases hspent.symm.trans hx
      have hmem : b ∈ s.requests := List.mem_of_getElem? hb
      have hdone := hexcl rfl hfresh r hi hstage hmatch b hmem (hbx.trans hpresented.symm)
      exact h.gone b hmem token hbx hdone _ hstored
  | @refuse i ok access refresh r hi hstage hno =>
    refine iff_of_true (huse.set_of_le hi (.inr rfl)) ?_
    intro hok _ r₁ hr₁ _ hmatch
    cases hi.symm.trans hr₁
    exact absurd ⟨hok, hmatch⟩ hno
  | setToken hi hstage => exact iff_of_true (huse.set_of_le hi (.inr rfl)) trivial
  | setRefresh hi hstage hm => exact iff_of_true (huse.set_of_le hi (.inr rfl)) trivial
  | notSet hi hstage => exact iff_of_true (huse.set_of_le hi (.inr rfl)) trivial
  | elapse => exact iff_of_true huse trivial

/-- A step that is not taken meets the condition. -/
theorem exclusive_of_none (h : s.next e = none) : s.Exclusive e := by
  cases e with
  | get i ok access refresh =>
    intro hok hfresh r hr hstage hmatch
    have hsome : s.next (.get i ok access refresh) =
        some (s.put i { r with pair := some (access, refresh), stage := .settingToken }) := by
      show (s.requests[i]?).bind _ = _
      rw [Option.mem_def.mp hr, Option.bind_some, if_pos hstage, if_pos ⟨hok, hmatch⟩, if_pos hfresh]
    rw [hsome] at h
    cases h
  | _ => trivial

/-- Each refresh token leads to one new pair at most, all along, in exactly those runs in which
every matching read meets the condition. -/
theorem singleUse_iff (es : List LoginEvent) :
    RunOk next Exclusive new es ↔
      ∀ ms t, ms <+: es → run next new ms = some t → t.SingleUse := by
  refine runOk_iff_of_implies (I := fun s => Inv s ∧ s.SingleUse) (J := SingleUse)
    (fun _ _ => exclusive_of_none) (fun _ h => h.2) ?_ ?_ ⟨new_inv, keysUnique_nil⟩
  · intro s e s' h hexcl hnext
    have hstep := step_of_next hnext
    exact ⟨h.1.step hstep, (h.1.singleUse_step_iff h.2 hstep).mpr hexcl⟩
  · intro s e s' h hnext huse
    exact (h.1.singleUse_step_iff h.2 (step_of_next hnext)).mp huse

/-- Two refreshes with the token of a login read before either writes. -/
def twoRefreshes : List LoginEvent :=
  [.login 7 "a0" "r0", .setToken 0 true, .setRefresh 0 true, .refresh 7 "r0", .refresh 7 "r0",
    .get 1 true "a1" "r1", .get 2 true "a2" "r2"]

/-- Both get a new pair. -/
theorem not_singleUse_twoRefreshes :
    ∃ s, run next new twoRefreshes = some s ∧ ¬ s.SingleUse := by
  have hsteps : (run next new twoRefreshes).map (fun s => s.requests) =
      some [⟨7, none, some ("a0", "r0"), .answered true⟩,
        ⟨7, some "r0", some ("a1", "r1"), .settingToken⟩,
        ⟨7, some "r0", some ("a2", "r2"), .settingToken⟩] := by
    decide
  obtain ⟨s, hrun, hrequests⟩ := Option.map_eq_some_iff.mp hsteps
  refine ⟨s, hrun, fun huse => ?_⟩
  unfold SingleUse at huse
  rw [hrequests] at huse
  exact absurd (huse 1 2 _ _ "r0" rfl rfl rfl rfl) (by decide)

end LoginService

end Gmaker.Login
