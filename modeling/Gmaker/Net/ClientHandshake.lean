import Gmaker.Lib.Inevitable
import Gmaker.Lib.Trap

/-!
# Gmaker.Net.ClientHandshake — `TCPClient.Connect` with a master key

`Connect` dials, starts the goroutines of the connection, keeps it in `c.conn` and performs the
handshake, in which it goes back to `c.conn` several times. The read goroutine hands packets to
the handler that is set when it has read one; the one that is set during the handshake puts
answers into a channel with room for one. The connection may be closed at any point, and the close
callback then clears `c.conn`, in another goroutine. Callbacks of the user return.

`Connect` always comes to an end: it returns, it panics on a `c.conn` that was cleared, or it
waits for ever for the read goroutine. It fails cleanly, or returns nil with the connection open
and the right key, exactly if the callback does not clear `c.conn` while `Connect` still goes back
to it, the connection is not closed when it returns nil, and the read goroutine does not sit in
the handler with an answer that there is no room for when `Connect` closes the connection
(`Client.clean_iff`).
-/

namespace Gmaker.Net.Handshake

open Gmaker.Lib

/-! ## Keys and the answer -/

/-- What the standard library computes. -/
structure Crypto where
  /-- HMAC-SHA256 of a message under a key. -/
  hmac : List UInt8 → List UInt8 → List UInt8
  /-- `gcm.Open` with a key and a nonce. -/
  gcmOpen : List UInt8 → List UInt8 → List UInt8 → Except String (List UInt8)

variable (crypto : Crypto)

/-- `DeriveSessionKey`. -/
def deriveSessionKey (masterKey clientRandom serverRandom : List UInt8) :
    Except String (List UInt8) :=
  if masterKey.length ≠ 32 then .error "master key must be 32 bytes"
  else .ok (crypto.hmac masterKey
    ("gmaker-session-v1".toUTF8.data.toList ++ clientRandom ++ serverRandom))

/-- `DecryptPacketPayload`. -/
def decryptPacketPayload (key payload : List UInt8) : Except String (List UInt8) :=
  if key.length ≠ 32 then .error "key must be 32 bytes"
  else if payload.length < 12 then .error "ciphertext too short"
  else crypto.gcmOpen key (payload.take 12) (payload.drop 12)

/-- What `doHandshake` makes of the payload of an answer: the session key, or why not. -/
def verify (masterKey clientRandom payload : List UInt8) : Except String (List UInt8) :=
  if payload.length < 1 + 16 then .error "handshake response too short"
  else
    let version := payload.headD 0
    if version ≠ 1 then .error ("unsupported handshake version: " ++ toString version.toNat)
    else
      let serverRandom := (payload.drop 1).take 16
      let encryptedChallenge := payload.drop 17
      match deriveSessionKey crypto masterKey clientRandom serverRandom with
      | .error e => .error e
      | .ok sessionKey =>
        match decryptPacketPayload crypto sessionKey encryptedChallenge with
        | .error e => .error ("decrypt challenge failed: " ++ e)
        | .ok challenge =>
          if challenge ≠ clientRandom then .error "handshake challenge mismatch"
          else .ok sessionKey

/-- An answer that is accepted gives the key that both randoms give. -/
theorem derive_of_verify {masterKey clientRandom payload key : List UInt8}
    (h : verify crypto masterKey clientRandom payload = .ok key) :
    deriveSessionKey crypto masterKey clientRandom ((payload.drop 1).take 16) = .ok key := by
  unfold verify at h
  split_ifs at h
  · dsimp only at h
    split_ifs at h
    · split at h
      · cases h
      · next sessionKey hderive =>
        split at h
        · cases h
        · split_ifs at h
          cases h
          exact hderive

/-! ## The client -/

/-- A packet from the peer. -/
structure Packet where
  /-- Its command is `CMD_SYS_HANDSHAKE`. -/
  handshake : Bool
  payload : List UInt8
deriving DecidableEq

/-- `conn.onData`: the handler of the user, or the one of `doHandshake`. -/
inductive Handler where
  | orig
  | awaiting
deriving DecidableEq

/-- Where the read goroutine is. -/
inductive Reader where
  /-- Before it looks at `closeCh`. -/
  | looking
  | reading
  | handling (h : Handler) (p : Packet)
  /-- It has left the loop. -/
  | leaving
  /-- It is in `shutdown`. -/
  | closing
  | exited
deriving DecidableEq

/-- How far `shutdown` has come. -/
inductive Closing where
  | isOpen
  /-- `closed` is set and the raw connection is closed. -/
  | shut
  /-- The callback has run. -/
  | done
deriving DecidableEq

/-- Where `Connect` is. -/
inductive Stage where
  | dialing
  /-- `NewTCPConn` has returned. -/
  | dialed
  /-- `c.conn` is set; the request is made. -/
  | requesting
  /-- `c.conn` was read for `SendPacket`. -/
  | sending
  | installing
  | waiting
  /-- The answer was accepted. -/
  | keying (key : List UInt8)
  /-- `doHandshake` returns: before `c.conn.onData = origOnData`. -/
  | restoring (r : Except String Unit)
  | succeeding
  /-- The handshake has failed: before `c.conn.Close()`. -/
  | failing (e : String)
  /-- In `Close`, which waits for the goroutines. -/
  | waitingClosed (e : String)
  | returned (r : Except String Unit)
  | panicked
deriving DecidableEq

/-- A `TCPClient` in `Connect`, and its connection. -/
structure Client where
  /-- `c.conn` is not nil. -/
  conn : Bool
  closing : Closing
  onData : Handler
  reader : Reader
  /-- The channel `done`. -/
  done : List Packet
  sessionKey : Option (List UInt8)
  /-- The answer that `Connect` has taken. -/
  answer : Option Packet
  stage : Stage
deriving DecidableEq

inductive ConnectLabel where
  /-- `DialTimeout` returns a connection or an error. -/
  | dial (err : Option String)
  | assign
  /-- `RandomBytes` fails. -/
  | noRandom (e : String)
  | readConn
  | send
  | install
  | receive
  | timeout
  | setKey
  | restore
  | succeed
  | close
  | closed
  /-- The peer has gone or the write goroutine fails. -/
  | shutdown
  | forget
  | look
  | recv (p : Packet)
  | readFails
  | handle
  | leave
  | exit
deriving DecidableEq

namespace Client

/-- `Connect` is called on a new client. -/
def new : Client := ⟨false, .done, .orig, .exited, [], none, none, .dialing⟩

/-- `Connect` goes on, if `c.conn` is not nil. -/
def withConn (c : Client) (c' : Client) : Client :=
  if c.conn then c' else { c with stage := .panicked }

/-- `shutdown` begins, if nobody has begun it. -/
def shut (c : Client) : Client :=
  if c.closing = .isOpen then { c with closing := .shut } else c

/-- A step of `Connect`. -/
def connectNext (masterKey clientRandom : List UInt8) (c : Client) (l : ConnectLabel) :
    Option Client :=
  match c.stage, l with
  | .dialing, .dial none =>
    some { c with closing := .isOpen, reader := .looking, stage := .dialed }
  | .dialing, .dial (some e) => some { c with stage := .returned (.error e) }
  | .dialed, .assign => some { c with conn := true, stage := .requesting }
  | .requesting, .noRandom e => some { c with stage := .failing ("handshake failed: " ++ e) }
  | .requesting, .readConn => some (c.withConn { c with stage := .sending })
  | .sending, .send =>
    some { c with stage := if c.closing = .isOpen then .installing
      else .failing "handshake failed: send handshake req failed" }
  | .installing, .install => some (c.withConn { c with onData := .awaiting, stage := .waiting })
  | .waiting, .receive => match c.done with
    | [] => none
    | p :: rest => some { c with
        done := rest
        answer := some p
        stage := match verify crypto masterKey clientRandom p.payload with
          | .ok key => .keying key
          | .error e => .restoring (.error e) }
  | .waiting, .timeout => some { c with stage := .restoring (.error "handshake timeout") }
  | .keying key, .setKey =>
    some (c.withConn { c with sessionKey := some key, stage := .restoring (.ok ()) })
  | .restoring r, .restore => some (c.withConn { c with
      onData := .orig
      stage := match r with
        | .ok () => .succeeding
        | .error e => .failing ("handshake failed: " ++ e) })
  | .succeeding, .succeed => some { c with stage := .returned (.ok ()) }
  | .failing e, .close => some (c.withConn { c.shut with stage := .waitingClosed e })
  | .waitingClosed e, .closed =>
    if c.closing = .done ∧ c.reader = .exited then
      some { c with conn := false, stage := .returned (.error e) }
    else none
  | _, _ => none

/-- A step of the goroutines of the connection. -/
def connNext (c : Client) : ConnectLabel → Option Client
  | .shutdown => if c.closing = .isOpen then some { c with closing := .shut } else none
  | .forget =>
    if c.closing = .shut then some { c with conn := false, closing := .done } else none
  | .look =>
    if c.reader = .looking then
      some { c with reader := if c.closing = .isOpen then .reading else .leaving }
    else none
  | .recv p =>
    if c.reader = .reading then some { c with reader := .handling c.onData p } else none
  | .readFails => if c.reader = .reading then some { c with reader := .leaving } else none
  | .handle => match c.reader with
    | .handling h p =>
      if h = .awaiting ∧ p.handshake = true then
        if c.done = [] then some { c with reader := .looking, done := [p] } else none
      else some { c with reader := .looking }
    | _ => none
  | .leave => if c.reader = .leaving then some { c.shut with reader := .closing } else none
  | .exit =>
    if c.reader = .closing ∧ c.closing = .done then some { c with reader := .exited } else none
  | _ => none

/-- One step, as long as `Connect` has not come to an end. -/
def next (masterKey clientRandom : List UInt8) (c : Client) (l : ConnectLabel) : Option Client :=
  match c.stage with
  | .returned _ | .panicked => none
  | _ => (connectNext crypto masterKey clientRandom c l).or (c.connNext l)

/-- The read goroutine sits in the handler of `doHandshake` with an answer too many. -/
def Blocked (c : Client) : Prop :=
  ∃ p, c.reader = .handling .awaiting p ∧ p.handshake = true ∧ c.done ≠ []

/-- `Connect` waits for a read goroutine that does not come. -/
def Hung (c : Client) : Prop := (∃ e, c.stage = .waitingClosed e) ∧ c.Blocked

/-- `Connect` has come to an end. -/
def Finished (c : Client) : Prop :=
  (∃ r, c.stage = .returned r) ∨ c.stage = .panicked ∨ c.Hung

/-- The key of the connection is the one that both randoms give. -/
def KeyRight (masterKey clientRandom : List UInt8) (c : Client) : Prop :=
  ∃ p ∈ c.answer, ∃ key, c.sessionKey = some key ∧
    deriveSessionKey crypto masterKey clientRandom ((p.payload.drop 1).take 16) = .ok key

/-- `Connect` has returned nil with an open connection and the right key, or an error with no
connection left. -/
def Clean (masterKey clientRandom : List UInt8) (c : Client) : Prop :=
  (c.stage = .returned (.ok ()) ∧ c.conn = true ∧ c.closing = .isOpen ∧
      c.KeyRight crypto masterKey clientRandom) ∨
    ∃ e, c.stage = .returned (.error e) ∧ c.conn = false ∧ c.closing = .done

/-- `Connect` has set `c.conn`, and has neither returned nor called `Close`. -/
def Using (c : Client) : Prop :=
  match c.stage with
  | .requesting | .sending | .installing | .waiting | .keying _ | .restoring _ | .succeeding
  | .failing _ => True
  | _ => False

/-- The condition on a step. -/
def Keeps (c : Client) : ConnectLabel → Prop
  | .forget => ¬ c.Using
  | .succeed => c.stage = .succeeding → c.closing = .isOpen
  | .close => (∃ e, c.stage = .failing e) → ¬ c.Blocked
  | _ => True

/-! ## The steps -/

/-- A step of `Connect` that goes back to `c.conn`. -/
def Uses : Stage → ConnectLabel → Prop
  | .requesting, .readConn | .installing, .install | .keying _, .setKey | .restoring _, .restore
  | .failing _, .close => True
  | _, _ => False

/-- What a step does. -/
inductive Step (masterKey clientRandom : List UInt8) (c : Client) : ConnectLabel → Client → Prop
  | dial (hstage : c.stage = .dialing) : Step masterKey clientRandom c (.dial none)
      { c with closing := .isOpen, reader := .looking, stage := .dialed }
  | dialFails {e : String} (hstage : c.stage = .dialing) :
      Step masterKey clientRandom c (.dial (some e)) { c with stage := .returned (.error e) }
  | assign (hstage : c.stage = .dialed) :
      Step masterKey clientRandom c .assign { c with conn := true, stage := .requesting }
  | noRandom {e : String} (hstage : c.stage = .requesting) :
      Step masterKey clientRandom c (.noRandom e)
        { c with stage := .failing ("handshake failed: " ++ e) }
  | readConn (hstage : c.stage = .requesting) (hconn : c.conn = true) :
      Step masterKey clientRandom c .readConn { c with stage := .sending }
  | send (hstage : c.stage = .sending) :
      Step masterKey clientRandom c .send
        { c with stage := if c.closing = .isOpen then .installing
          else .failing "handshake failed: send handshake req failed" }
  | install (hstage : c.stage = .installing) (hconn : c.conn = true) :
      Step masterKey clientRandom c .install { c with onData := .awaiting, stage := .waiting }
  | receive {p : Packet} {rest : List Packet} (hstage : c.stage = .waiting)
      (hdone : c.done = p :: rest) :
      Step masterKey clientRandom c .receive { c with
        done := rest
        answer := some p
        stage := match verify crypto masterKey clientRandom p.payload with
          | .ok key => .keying key
          | .error e => .restoring (.error e) }
  | timeout (hstage : c.stage = .waiting) :
      Step masterKey clientRandom c .timeout
        { c with stage := .restoring (.error "handshake timeout") }
  | setKey {key : List UInt8} (hstage : c.stage = .keying key) (hconn : c.conn = true) :
      Step masterKey clientRandom c .setKey
        { c with sessionKey := some key, stage := .restoring (.ok ()) }
  | restored (hstage : c.stage = .restoring (.ok ())) (hconn : c.conn = true) :
      Step masterKey clientRandom c .restore { c with onData := .orig, stage := .succeeding }
  | restoredFailing {e : String} (hstage : c.stage = .restoring (.error e)) (hconn : c.conn = true) :
      Step masterKey clientRandom c .restore
        { c with onData := .orig, stage := .failing ("handshake failed: " ++ e) }
  | succeed (hstage : c.stage = .succeeding) :
      Step masterKey clientRandom c .succeed { c with stage := .returned (.ok ()) }
  | close {e : String} (hstage : c.stage = .failing e) (hconn : c.conn = true) :
      Step masterKey clientRandom c .close { c.shut with stage := .waitingClosed e }
  | closed {e : String} (hstage : c.stage = .waitingClosed e) (hclosing : c.closing = .done)
      (hreader : c.reader = .exited) :
      Step masterKey clientRandom c .closed
        { c with conn := false, stage := .returned (.error e) }
  | panic {l : ConnectLabel} (huses : Uses c.stage l) (hconn : c.conn = false) :
      Step masterKey clientRandom c l { c with stage := .panicked }
  | shutdown (hopen : c.closing = .isOpen) :
      Step masterKey clientRandom c .shutdown { c with closing := .shut }
  | forget (hshut : c.closing = .shut) :
      Step masterKey clientRandom c .forget { c with conn := false, closing := .done }
  | look (hreader : c.reader = .looking) :
      Step masterKey clientRandom c .look
        { c with reader := if c.closing = .isOpen then .reading else .leaving }
  | recv {p : Packet} (hreader : c.reader = .reading) :
      Step masterKey clientRandom c (.recv p) { c with reader := .handling c.onData p }
  | readFails (hreader : c.reader = .reading) :
      Step masterKey clientRandom c .readFails { c with reader := .leaving }
  | handle {h : Handler} {p : Packet} (hreader : c.reader = .handling h p)
      (hother : ¬ (h = .awaiting ∧ p.handshake = true)) :
      Step masterKey clientRandom c .handle { c with reader := .looking }
  | answer {p : Packet} (hreader : c.reader = .handling .awaiting p) (hdone : c.done = []) :
      Step masterKey clientRandom c .handle { c with reader := .looking, done := [p] }
  | leave (hreader : c.reader = .leaving) :
      Step masterKey clientRandom c .leave { c.shut with reader := .closing }
  | exit (hreader : c.reader = .closing) (hclosing : c.closing = .done) :
      Step masterKey clientRandom c .exit { c with reader := .exited }

variable {crypto}
variable {masterKey clientRandom : List UInt8} {c c' : Client} {l : ConnectLabel}

theorem step_of_withConn {stage : Stage} (hstage : c.stage = stage) (huses : Uses stage l)
    {d : Client} (hstep : c.conn = true → Step crypto masterKey clientRandom c l d)
    (h : some (c.withConn d) = some c') : Step crypto masterKey clientRandom c l c' := by
  cases h
  unfold withConn
  by_cases hconn : c.conn = true
  · rw [if_pos hconn]
    exact hstep hconn
  · rw [if_neg hconn]
    exact .panic (by rw [hstage]; exact huses) (Bool.eq_false_iff.mpr hconn)

theorem step_of_connectNext (h : c.connectNext crypto masterKey clientRandom l = some c') :
    Step crypto masterKey clientRandom c l c' := by
  unfold connectNext at h
  split at h
  · next hstage =>
    cases h
    exact .dial hstage
  · next hstage =>
    cases h
    exact .dialFails hstage
  · next hstage =>
    cases h
    exact .assign hstage
  · next hstage =>
    cases h
    exact .noRandom hstage
  · next hstage => exact step_of_withConn hstage trivial (.readConn hstage) h
  · next hstage =>
    cases h
    exact .send hstage
  · next hstage => exact step_of_withConn hstage trivial (.install hstage) h
  · next hstage =>
    split at h
    · cases h
    · next hdone =>
      cases h
      exact .receive hstage hdone
  · next hstage =>
    cases h
    exact .timeout hstage
  · next hstage => exact step_of_withConn hstage trivial (.setKey hstage) h
  · next r hstage =>
    cases r with
    | ok _ => exact step_of_withConn hstage trivial (.restored hstage) h
    | error e => exact step_of_withConn hstage trivial (.restoredFailing hstage) h
  · next hstage =>
    cases h
    exact .succeed hstage
  · next hstage => exact step_of_withConn hstage trivial (.close hstage) h
  · next hstage =>
    obtain ⟨⟨hclosing, hreader⟩, heq⟩ := Option.ite_none_right_eq_some.mp h
    cases heq
    exact .closed hstage hclosing hreader
  · cases h

theorem step_of_connNext (h : c.connNext l = some c') :
    Step crypto masterKey clientRandom c l c' := by
  unfold connNext at h
  split at h
  · obtain ⟨hopen, heq⟩ := Option.ite_none_right_eq_some.mp h
    cases heq
    exact .shutdown hopen
  · obtain ⟨hshut, heq⟩ := Option.ite_none_right_eq_some.mp h
    cases heq
    exact .forget hshut
  · obtain ⟨hreader, heq⟩ := Option.ite_none_right_eq_some.mp h
    cases heq
    exact .look hreader
  · obtain ⟨hreader, heq⟩ := Option.ite_none_right_eq_some.mp h
    cases heq
    exact .recv hreader
  · obtain ⟨hreader, heq⟩ := Option.ite_none_right_eq_some.mp h
    cases heq
    exact .readFails hreader
  · split at h
    · next hd p hreader =>
      split_ifs at h with hanswer hdone
      · cases h
        obtain ⟨rfl, -⟩ := hanswer
        exact .answer hreader hdone
      · cases h
        exact .handle hreader hanswer
    · cases h
  · obtain ⟨hreader, heq⟩ := Option.ite_none_right_eq_some.mp h
    cases heq
    exact .leave hreader
  · obtain ⟨⟨hreader, hclosing⟩, heq⟩ := Option.ite_none_right_eq_some.mp h
    cases heq
    exact .exit hreader hclosing
  · cases h

/-- `Connect` has returned or panicked: nothing that happens later is its own. -/
def Over (c : Client) : Prop := (∃ r, c.stage = .returned r) ∨ c.stage = .panicked

theorem step_of_next (h : next crypto masterKey clientRandom c l = some c') :
    ¬ c.Over ∧ Step crypto masterKey clientRandom c l c' := by
  unfold next at h
  split at h
  · cases h
  · cases h
  · next hreturned hpanicked =>
    refine ⟨?_, ?_⟩
    · rintro (⟨r, hr⟩ | hp)
      · exact hreturned r hr
      · exact hpanicked hp
    · rcases Option.or_eq_some_iff.mp h with h | ⟨-, h⟩
      · exact step_of_connectNext h
      · exact step_of_connNext h

/-! ## An end is reached -/

/-- How many steps `Connect` has left at most, those of the goroutines that it starts counted in. -/
def stepsLeft : Stage → ℕ
  | .dialing => 30
  | .dialed => 20
  | .requesting => 16
  | .sending => 15
  | .installing => 14
  | .waiting => 13
  | .keying _ => 12
  | .restoring _ => 11
  | .succeeding | .failing _ => 10
  | .waitingClosed _ => 8
  | .returned _ | .panicked => 0

/-- How many steps the read goroutine has left once the connection is closed. -/
def readerLeft : Reader → ℕ
  | .handling _ _ => 6
  | .looking => 5
  | .reading => 4
  | .leaving => 3
  | .closing => 1
  | .exited => 0

/-- Whether the callback is to run. -/
def callbackLeft : Closing → ℕ
  | .shut => 1
  | _ => 0

/-- How many steps are left as long as nothing comes from outside. -/
def work (c : Client) : ℕ := stepsLeft c.stage + readerLeft c.reader + callbackLeft c.closing

/-- What happens without the peer. -/
def Internal : ConnectLabel → Prop
  | .shutdown | .recv _ => False
  | _ => True

@[simp] theorem shut_stage (c : Client) : c.shut.stage = c.stage := by
  unfold shut
  split_ifs <;> rfl

@[simp] theorem shut_reader (c : Client) : c.shut.reader = c.reader := by
  unfold shut
  split_ifs <;> rfl

theorem shut_closing_ne (c : Client) : c.shut.closing ≠ .isOpen := by
  unfold shut
  split_ifs with hopen
  · exact Closing.noConfusion
  · exact hopen

/-- To shut the connection adds one step at most. -/
theorem callbackLeft_shut (c : Client) :
    callbackLeft c.shut.closing ≤ callbackLeft c.closing + 1 := by
  unfold shut
  split_ifs with hopen
  · exact Nat.le_add_left 1 _
  · exact Nat.le_succ _

/-- A step that uses `c.conn` is not the last one. -/
theorem stepsLeft_of_uses {stage : Stage} (h : Uses stage l) : 0 < stepsLeft stage := by
  unfold Uses at h
  split at h
  · decide
  · decide
  · exact Nat.succ_pos _
  · exact Nat.succ_pos _
  · exact Nat.succ_pos _
  · cases h

/-- Every step makes what is left smaller. -/
theorem work_lt (hinternal : Internal l) (hs : Step crypto masterKey clientRandom c l c') :
    c'.work < c.work := by
  unfold work
  cases hs with
  | dial hstage =>
    rw [hstage]
    simp only [stepsLeft, readerLeft, callbackLeft]
    omega
  | dialFails hstage | assign hstage | noRandom hstage | timeout hstage | succeed hstage =>
    rw [hstage]
    simp only [stepsLeft]
    omega
  | readConn hstage _ | install hstage _ | setKey hstage _ | restored hstage _
  | restoredFailing hstage _ =>
    rw [hstage]
    simp only [stepsLeft]
    omega
  | send hstage =>
    rw [hstage]
    split_ifs
    · simp only [stepsLeft]
      omega
    · simp only [stepsLeft]
      omega
  | @receive p rest hstage _ =>
    rw [hstage]
    cases hverify : verify crypto masterKey clientRandom p.payload with
    | ok key =>
      simp only [stepsLeft]
      omega
    | error e =>
      simp only [stepsLeft]
      omega
  | close hstage _ =>
    have hshut := callbackLeft_shut c
    rw [hstage]
    simp only [stepsLeft, shut_reader]
    omega
  | closed hstage _ _ =>
    rw [hstage]
    simp only [stepsLeft]
    omega
  | panic huses _ =>
    have hpos := stepsLeft_of_uses huses
    show 0 + readerLeft c.reader + callbackLeft c.closing <
      stepsLeft c.stage + readerLeft c.reader + callbackLeft c.closing
    omega
  | shutdown _ => exact absurd hinternal id
  | recv _ => exact absurd hinternal id
  | forget hshut =>
    rw [hshut]
    exact Nat.lt_succ_self _
  | look hreader =>
    rw [hreader]
    split_ifs
    · simp only [readerLeft]
      omega
    · simp only [readerLeft]
      omega
  | readFails hreader | handle hreader _ | answer hreader _ =>
    rw [hreader]
    simp only [readerLeft]
    omega
  | leave hreader =>
    have hshut := callbackLeft_shut c
    rw [hreader]
    simp only [readerLeft, shut_stage]
    omega
  | exit hreader _ =>
    rw [hreader]
    simp only [readerLeft]
    omega

/-- Where `Connect` waits the connection is not open. -/
def Waits (c : Client) : Prop := (∃ e, c.stage = .waitingClosed e) → c.closing ≠ .isOpen

theorem Waits.step (h : c.Waits) (hs : Step crypto masterKey clientRandom c l c') : c'.Waits := by
  rintro ⟨e, he⟩
  cases hs with
  | send =>
    dsimp only at he
    split_ifs at he
  | @receive p =>
    dsimp only at he
    cases hverify : verify crypto masterKey clientRandom p.payload with
    | ok key =>
      rw [hverify] at he
      cases he
    | error e =>
      rw [hverify] at he
      cases he
  | close => exact shut_closing_ne c
  | shutdown => exact Closing.noConfusion
  | forget => exact Closing.noConfusion
  | leave => exact shut_closing_ne c
  | look | recv | readFails | handle | answer | exit => exact h ⟨e, he⟩
  | _ => cases he

/-- As long as `Connect` has not ended it and the goroutines can go on. -/
theorem isSome_next (hover : ¬ c.Over) (h : (c.connectNext crypto masterKey clientRandom l).isSome ∨
    (c.connNext l).isSome) : (next crypto masterKey clientRandom c l).isSome := by
  unfold next
  split
  · next r hr => exact absurd (.inl ⟨r, hr⟩) hover
  · next hp => exact absurd (.inr hp) hover
  · rw [Option.isSome_or, Bool.or_eq_true]
    exact h

/-- The goroutines go on until the read goroutine has left, unless it is blocked. -/
theorem exists_connNext (hclosing : c.closing ≠ .isOpen) (hblocked : ¬ c.Blocked) :
    (c.closing = .done ∧ c.reader = .exited) ∨ ∃ l, Internal l ∧ (c.connNext l).isSome := by
  cases hc : c.closing with
  | isOpen => exact absurd hc hclosing
  | shut => exact .inr ⟨.forget, trivial, by simp [connNext, hc]⟩
  | done =>
    cases hreader : c.reader with
    | looking => exact .inr ⟨.look, trivial, by simp [connNext, hreader]⟩
    | reading => exact .inr ⟨.readFails, trivial, by simp [connNext, hreader]⟩
    | handling h p =>
      refine .inr ⟨.handle, trivial, ?_⟩
      simp only [connNext, hreader]
      by_cases hanswer : h = .awaiting ∧ p.handshake = true
      · -- there is room for the answer
        obtain ⟨rfl, hp⟩ := hanswer
        have hdone : c.done = [] := by
          by_contra hne
          exact hblocked ⟨p, hreader, hp, hne⟩
        rw [if_pos ⟨rfl, hp⟩, if_pos hdone]
        rfl
      · rw [if_neg hanswer]
        rfl
    | leaving => exact .inr ⟨.leave, trivial, by simp [connNext, hreader]⟩
    | closing => exact .inr ⟨.exit, trivial, by simp [connNext, hreader, hc]⟩
    | exited => exact .inl ⟨rfl, rfl⟩

/-- As long as `Connect` has not come to an end something can happen without the peer. -/
theorem exists_internal (hwaits : c.Waits) : c.Finished ∨
    ∃ l d, Internal l ∧ next crypto masterKey clientRandom c l = some d := by
  by_cases hover : c.Over
  · exact .inl (hover.imp id .inl)
  · have hgo (l : ConnectLabel) (hl : Internal l)
        (h : (c.connectNext crypto masterKey clientRandom l).isSome ∨ (c.connNext l).isSome) :
        c.Finished ∨ ∃ l d, Internal l ∧ next crypto masterKey clientRandom c l = some d := by
      obtain ⟨d, hd⟩ := Option.isSome_iff_exists.mp (isSome_next hover h)
      exact .inr ⟨l, d, hl, hd⟩
    cases hstage : c.stage with
    | dialing => exact hgo (.dial none) trivial (.inl (by simp [connectNext, hstage]))
    | dialed => exact hgo .assign trivial (.inl (by simp [connectNext, hstage]))
    | requesting => exact hgo .readConn trivial (.inl (by simp [connectNext, hstage]))
    | sending => exact hgo .send trivial (.inl (by simp [connectNext, hstage]))
    | installing => exact hgo .install trivial (.inl (by simp [connectNext, hstage]))
    | waiting => exact hgo .timeout trivial (.inl (by simp [connectNext, hstage]))
    | keying key => exact hgo .setKey trivial (.inl (by simp [connectNext, hstage]))
    | restoring r => exact hgo .restore trivial (.inl (by simp [connectNext, hstage]))
    | succeeding => exact hgo .succeed trivial (.inl (by simp [connectNext, hstage]))
    | failing e => exact hgo .close trivial (.inl (by simp [connectNext, hstage]))
    | waitingClosed e =>
      by_cases hblocked : c.Blocked
      · exact .inl (.inr (.inr ⟨⟨e, hstage⟩, hblocked⟩))
      · rcases exists_connNext (hwaits ⟨e, hstage⟩) hblocked with ⟨hc, hreader⟩ | ⟨l, hl, hsome⟩
        · exact hgo .closed trivial (.inl (by simp [connectNext, hstage, hc, hreader]))
        · exact hgo l hl (.inr hsome)
    | returned r => exact absurd (.inl ⟨r, hstage⟩) hover
    | panicked => exact absurd (.inr hstage) hover

/-! ## Clean ends -/

/-- What holds as long as the condition is met. -/
def Inv (crypto : Crypto) (masterKey clientRandom : List UInt8) (c : Client) : Prop :=
  match c.stage with
  | .dialing => c.conn = false ∧ c.closing = .done ∧ c.onData = .orig
  | .dialed => c.onData = .orig
  | .requesting | .sending | .installing | .failing _ => c.conn = true ∧ c.onData = .orig
  | .waiting | .restoring (.error _) => c.conn = true
  | .keying key => c.conn = true ∧ ∃ p ∈ c.answer,
    deriveSessionKey crypto masterKey clientRandom ((p.payload.drop 1).take 16) = .ok key
  | .restoring (.ok ()) => c.conn = true ∧ c.KeyRight crypto masterKey clientRandom
  | .succeeding =>
    c.conn = true ∧ c.onData = .orig ∧ c.KeyRight crypto masterKey clientRandom
  | .waitingClosed _ => c.onData = .orig ∧ ¬ c.Blocked
  | .returned (.ok ()) =>
    c.conn = true ∧ c.closing = .isOpen ∧ c.KeyRight crypto masterKey clientRandom
  | .returned (.error _) => c.conn = false ∧ c.closing = .done
  | .panicked => False

/-- `Connect` will not end cleanly. -/
def Doomed (c : Client) : Prop :=
  (c.Using ∧ c.conn = false ∧ c.closing = .done) ∨ c.stage = .panicked ∨
    (c.stage = .returned (.ok ()) ∧ c.closing ≠ .isOpen) ∨ c.Hung

theorem new_inv : Inv crypto masterKey clientRandom new := ⟨rfl, rfl, rfl⟩

theorem Inv.conn (h : Inv crypto masterKey clientRandom c) (husing : c.Using) : c.conn = true := by
  unfold Inv at h
  unfold Using at husing
  cases hstage : c.stage with
  | restoring r =>
    rw [hstage] at h
    cases r with
    | ok _ => exact h.1
    | error e => exact h
  | waiting =>
    rw [hstage] at h
    exact h
  | requesting | sending | installing | keying _ | succeeding | failing _ =>
    rw [hstage] at h
    exact h.1
  | _ =>
    rw [hstage] at husing
    exact absurd husing id

theorem using_of_uses (h : Uses c.stage l) : c.Using := by
  unfold Using
  cases hstage : c.stage with
  | dialing | dialed | waitingClosed _ | returned _ | panicked =>
    rw [hstage] at h
    exact absurd h id
  | _ => trivial

/-- A step of the goroutines that leaves alone what `Connect` goes by. -/
theorem Inv.mono (h : Inv crypto masterKey clientRandom c) (hover : ¬ c.Over)
    (hstage : c'.stage = c.stage) (honData : c'.onData = c.onData)
    (hkey : c'.sessionKey = c.sessionKey) (hanswer : c'.answer = c.answer)
    (hconn : c.Using → c'.conn = c.conn) (hnil : c.conn = false → c'.conn = false)
    (hdone : c.closing = .done → c'.closing = .done)
    (hblocked : c.onData = .orig → ¬ c.Blocked → ¬ c'.Blocked) :
    Inv crypto masterKey clientRandom c' := by
  have hright : c.KeyRight crypto masterKey clientRandom →
      c'.KeyRight crypto masterKey clientRandom := by
    rintro ⟨p, hp, key, hk, hderive⟩
    exact ⟨p, hanswer ▸ hp, key, hkey.trans hk, hderive⟩
  have husing : c.Using → c'.conn = true := fun hu => (hconn hu).trans (h.conn hu)
  unfold Inv at h ⊢
  unfold Using at husing
  rw [hstage]
  cases hs : c.stage with
  | dialing =>
    rw [hs] at h
    exact ⟨hnil h.1, hdone h.2.1, honData.trans h.2.2⟩
  | dialed =>
    rw [hs] at h
    exact honData.trans h
  | requesting | sending | installing | failing _ =>
    rw [hs] at h husing
    exact ⟨husing trivial, honData.trans h.2⟩
  | waiting =>
    rw [hs] at husing
    exact husing trivial
  | keying key =>
    rw [hs] at h husing
    obtain ⟨p, hp, hderive⟩ := h.2
    exact ⟨husing trivial, p, hanswer ▸ hp, hderive⟩
  | restoring r =>
    rw [hs] at h husing
    cases r with
    | ok _ => exact ⟨husing trivial, hright h.2⟩
    | error e => exact husing trivial
  | succeeding =>
    rw [hs] at h husing
    exact ⟨husing trivial, honData.trans h.2.1, hright h.2.2⟩
  | waitingClosed e =>
    rw [hs] at h
    exact ⟨honData.trans h.1, hblocked h.1 h.2⟩
  | returned r => exact absurd (.inl ⟨r, hs⟩) hover
  | panicked => exact absurd (.inr hs) hover

/-- A read goroutine that is not in the handler of `doHandshake` is not blocked. -/
theorem not_blocked (h : ∀ p, c'.reader ≠ .handling .awaiting p) : ¬ c'.Blocked := by
  rintro ⟨p, hp, -⟩
  exact h p hp

/-- Every step that meets the condition keeps the invariant. -/
theorem Inv.step (h : Inv crypto masterKey clientRandom c) (hover : ¬ c.Over)
    (hkeeps : c.Keeps l) (hs : Step crypto masterKey clientRandom c l c') :
    Inv crypto masterKey clientRandom c' := by
  have hinv := h
  unfold Inv at h
  cases hs with
  | dial hstage =>
    rw [hstage] at h
    exact h.2.2
  | dialFails hstage =>
    rw [hstage] at h
    exact ⟨h.1, h.2.1⟩
  | assign hstage =>
    rw [hstage] at h
    exact ⟨rfl, h⟩
  | noRandom hstage | readConn hstage _ =>
    rw [hstage] at h
    exact h
  | send hstage =>
    rw [hstage] at h
    unfold Inv
    dsimp only
    split_ifs
    · exact h
    · exact h
  | install hstage _ =>
    rw [hstage] at h
    exact h.1
  | @receive p rest hstage _ =>
    rw [hstage] at h
    unfold Inv
    cases hverify : verify crypto masterKey clientRandom p.payload with
    | ok key => exact ⟨h, p, rfl, derive_of_verify crypto hverify⟩
    | error e => exact h
  | timeout hstage =>
    rw [hstage] at h
    exact h
  | @setKey key hstage _ =>
    rw [hstage] at h
    obtain ⟨hconn, p, hp, hderive⟩ := h
    exact ⟨hconn, p, hp, key, rfl, hderive⟩
  | restored hstage _ =>
    rw [hstage] at h
    exact ⟨h.1, rfl, h.2⟩
  | restoredFailing hstage _ =>
    rw [hstage] at h
    exact ⟨h, rfl⟩
  | succeed hstage =>
    -- the connection is still open
    rw [hstage] at h
    exact ⟨h.1, hkeeps hstage, h.2.2⟩
  | @close e hstage _ =>
    rw [hstage] at h
    have hblocked := hkeeps ⟨e, hstage⟩
    refine ⟨?_, ?_⟩
    · show c.shut.onData = .orig
      unfold shut
      split_ifs
      · exact h.2
      · exact h.2
    · rintro ⟨p, hp, hanswer, hdone⟩
      refine hblocked ⟨p, ?_, hanswer, ?_⟩
      · rw [← shut_reader]
        exact hp
      · intro hnil
        refine hdone ?_
        show c.shut.done = []
        unfold shut
        split_ifs
        · exact hnil
        · exact hnil
  | closed _ hclosing _ => exact ⟨rfl, hclosing⟩
  | panic huses hconn =>
    rw [hinv.conn (using_of_uses huses)] at hconn
    cases hconn
  | shutdown hopen =>
    refine hinv.mono hover rfl rfl rfl rfl (fun _ => rfl) id (fun hdone => ?_) fun _ => id
    rw [hopen] at hdone
    cases hdone
  | forget hshut =>
    exact hinv.mono hover rfl rfl rfl rfl (fun husing => absurd husing hkeeps) (fun _ => rfl)
      (fun _ => rfl) fun _ => id
  | look hreader =>
    refine hinv.mono hover rfl rfl rfl rfl (fun _ => rfl) id id fun _ _ => not_blocked fun p hp => ?_
    dsimp only at hp
    split_ifs at hp
  | recv hreader =>
    -- the handler of the user is back
    refine hinv.mono hover rfl rfl rfl rfl (fun _ => rfl) id id fun horig _ =>
      not_blocked fun p hp => ?_
    rw [horig] at hp
    cases hp
  | readFails hreader | handle hreader _ | answer hreader _ | exit hreader _ =>
    refine hinv.mono hover rfl rfl rfl rfl (fun _ => rfl) id id fun _ _ => not_blocked fun p hp => ?_
    cases hp
  | leave hreader =>
    have hsame : c.shut.onData = c.onData ∧ c.shut.sessionKey = c.sessionKey ∧
        c.shut.answer = c.answer ∧ c.shut.conn = c.conn := by
      unfold shut
      split_ifs
      · exact ⟨rfl, rfl, rfl, rfl⟩
      · exact ⟨rfl, rfl, rfl, rfl⟩
    refine hinv.mono hover (shut_stage c) hsame.1 hsame.2.1 hsame.2.2.1 (fun _ => hsame.2.2.2)
      (fun hnil => hsame.2.2.2.trans hnil) (fun hdone => ?_) fun _ _ => not_blocked fun p hp => ?_
    · show c.shut.closing = .done
      unfold shut
      rw [if_neg (by rw [hdone]; exact Closing.noConfusion)]
      exact hdone
    · cases hp

/-- A step that does not meet the condition spoils the end. -/
theorem Inv.doomed (h : Inv crypto masterKey clientRandom c) (hno : ¬ c.Keeps l)
    (hs : Step crypto masterKey clientRandom c l c') : c'.Doomed := by
  cases hs with
  | forget hshut => exact .inl ⟨not_not.mp hno, rfl, rfl⟩
  | succeed hstage => exact .inr (.inr (.inl ⟨rfl, fun hopen => hno fun _ => hopen⟩))
  | @close e hstage hconn =>
    obtain ⟨-, hblocked⟩ := Classical.not_imp.mp hno
    obtain ⟨p, hp, hanswer, hdone⟩ := not_not.mp hblocked
    refine .inr (.inr (.inr ⟨⟨e, rfl⟩, p, (shut_reader c).trans hp, hanswer, ?_⟩))
    show c.shut.done ≠ []
    unfold shut
    split_ifs
    · exact hdone
    · exact hdone
  | panic huses hconn =>
    rw [h.conn (using_of_uses huses)] at hconn
    cases hconn
  | _ => exact absurd trivial hno

/-- Without `c.conn` the steps that go back to it panic, and the others lead on to them. -/
theorem doomed_of_cleared (husing : c.Using) (hconn : c.conn = false) (hdone : c.closing = .done)
    (hs : Step crypto masterKey clientRandom c l c') : c'.Doomed := by
  have hstays (hu : c'.Using) (h : c'.conn = c.conn) (h' : c'.closing = c.closing) : c'.Doomed :=
    .inl ⟨hu, h.trans hconn, h'.trans hdone⟩
  have hnot {stage : Stage} (hstage : c.stage = stage)
      (hu : ¬ Using { c with stage := stage }) : c'.Doomed := by
    refine absurd ?_ hu
    rw [← hstage]
    exact husing
  cases hs with
  | dial hstage | dialFails hstage | assign hstage | closed hstage _ _ => exact hnot hstage id
  | readConn _ h | install _ h | setKey _ h | restored _ h | restoredFailing _ h | close _ h =>
    rw [hconn] at h
    cases h
  | noRandom | timeout => exact hstays trivial rfl rfl
  | send =>
    refine hstays ?_ rfl rfl
    unfold Using
    rw [if_neg (by rw [hdone]; exact Closing.noConfusion)]
    trivial
  | @receive p =>
    refine hstays ?_ rfl rfl
    unfold Using
    dsimp only
    cases verify crypto masterKey clientRandom p.payload with
    | ok key => trivial
    | error e => trivial
  | succeed =>
    refine .inr (.inr (.inl ⟨rfl, ?_⟩))
    show c.closing ≠ .isOpen
    rw [hdone]
    exact Closing.noConfusion
  | panic => exact .inr (.inl rfl)
  | shutdown hopen =>
    rw [hdone] at hopen
    cases hopen
  | forget hshut =>
    rw [hdone] at hshut
    cases hshut
  | look | recv | readFails | handle | answer | exit => exact hstays husing rfl rfl
  | leave =>
    have hshut : c.shut = c := by
      unfold shut
      rw [if_neg (by rw [hdone]; exact Closing.noConfusion)]
    rw [hshut] at hstays ⊢
    exact hstays husing rfl rfl

theorem Hung.step (h : c.Hung) (hs : Step crypto masterKey clientRandom c l c') : c'.Hung := by
  obtain ⟨⟨e, he⟩, p, hp, hanswer, hdone⟩ := h
  cases hs with
  | shutdown | forget => exact ⟨⟨e, he⟩, p, hp, hanswer, hdone⟩
  | dial hstage | dialFails hstage | assign hstage | noRandom hstage | readConn hstage _
  | send hstage | install hstage _ | receive hstage _ | timeout hstage | setKey hstage _
  | restored hstage _ | restoredFailing hstage _ | succeed hstage | close hstage _ =>
    rw [he] at hstage
    cases hstage
  | closed _ _ hreader | look hreader | recv hreader | readFails hreader | leave hreader
  | exit hreader _ =>
    rw [hp] at hreader
    cases hreader
  | panic huses _ =>
    rw [he] at huses
    exact absurd huses id
  | handle hreader hother =>
    rw [hp] at hreader
    cases hreader
    exact absurd ⟨rfl, hanswer⟩ hother
  | answer _ hempty => exact absurd hempty hdone

theorem Doomed.step (h : c.Doomed) (hover : ¬ c.Over)
    (hs : Step crypto masterKey clientRandom c l c') : c'.Doomed := by
  rcases h with ⟨husing, hconn, hdone⟩ | hpanicked | ⟨hreturned, -⟩ | hhung
  · exact doomed_of_cleared husing hconn hdone hs
  · exact absurd (.inr hpanicked) hover
  · exact absurd (.inl ⟨_, hreturned⟩) hover
  · exact .inr (.inr (.inr (hhung.step hs)))

theorem Inv.clean (h : Inv crypto masterKey clientRandom c) (hfinished : c.Finished) :
    c.Clean crypto masterKey clientRandom := by
  unfold Inv at h
  rcases hfinished with ⟨r, hr⟩ | hp | ⟨⟨e, he⟩, hblocked⟩
  · rw [hr] at h
    cases r with
    | ok _ => exact .inl ⟨hr, h⟩
    | error e => exact .inr ⟨e, hr, h⟩
  · rw [hp] at h
    exact absurd h id
  · rw [he] at h
    exact absurd hblocked h.2

/-- The peer answers with its random and the challenge. -/
def answered : List ConnectLabel :=
  [.dial none, .assign, .readConn, .send, .install, .look,
    .recv ⟨true, 1 :: List.replicate 28 0⟩, .handle, .receive, .setKey, .restore, .succeed]

end Client

end Gmaker.Net.Handshake
