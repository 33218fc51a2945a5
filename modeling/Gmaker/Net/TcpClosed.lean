import Gmaker.Lib.Machine
import Gmaker.Net.TcpFraming

/-!
# Gmaker.Net.TcpClosed — packets after `Close`

`ProcessReadBuffer` round by round, with what the middleware chain, the data callback and
other threads do in between. Nothing in the loop looks at `closed_`: a packet that is
whole in the buffer when `Close` is called is still passed on, while the KCP and UDP
connections drop it.

`quiet_run` says when this cannot be seen: `Close` is called only with no whole packet
behind (`Ok`), and no read completes one before `uv_close`.
-/

namespace Gmaker.Net.TcpRead

open Gmaker.Lib

variable {σ : Type}

/-! ## The middleware chain -/

/-- `Middleware::OnPacket`: the packet as it is left behind, the calls made on the
connection, and whether the packet goes on. -/
abbrev Middleware (σ : Type) := σ → Packet → σ × Packet × List Call × Bool

/-- `AsyncTCPServer::OnConnData`, the `on_data_` of an accepted connection. -/
def onConnData (onData : DataCallback σ) : List (Middleware σ) → DataCallback σ
  | [], user, pkt => onData user pkt
  | mw :: middlewares, user, pkt =>
    match mw user pkt with
    | (user, _, calls, false) => (user, calls)
    | (user, pkt, calls, true) =>
      let (user, more) := onConnData onData middlewares user pkt
      (user, calls ++ more)

/-- What `EncryptionMiddleware` asks the handshake middleware, and
`DecryptPacketPayload`. -/
structure Handshakes (σ : Type) where
  isHandshaked : σ → Bool
  getSessionKey : σ → Bytes
  decryptPacketPayload : Bytes → Bytes → Option Bytes

/-- `EncryptionMiddleware::OnPacket`. -/
def encryptionMiddleware (h : Handshakes σ) : Middleware σ := fun user pkt =>
  if h.isHandshaked user = false then (user, pkt, [.close], false)
  else
    let sessionKey := h.getSessionKey user
    if sessionKey = [] then (user, pkt, [.close], false)
    else if pkt.payload = [] then (user, pkt, [], true)
    else
      match h.decryptPacketPayload sessionKey pkt.payload with
      | some decrypted => (user, { pkt with payload := decrypted }, [], true)
      | none => (user, pkt, [.close], false)

/-! ## The loop thread and the others -/

/-- A connection and whether the loop thread is in `ProcessReadBuffer`. -/
structure Reader (σ : Type) where
  conn : Receiver σ
  processing : Bool := false

/-- What can happen at the read side. -/
inductive Event where
  | read (chunk : Bytes)
  /-- end of file or an error -/
  | readError
  /-- one round of `ProcessReadBuffer` -/
  | round
  /-- a call from outside `on_data_`, on the loop thread or on another one -/
  | close (onLoop : Bool)
  | closeAfterWrite
  /-- the loop runs what another thread's `Close` has posted -/
  | doClose

/-- `OnRead`, up to the call of `ProcessReadBuffer`. -/
def Reader.read (r : Reader σ) (chunk : Bytes) : Reader σ :=
  if chunk = [] then r
  else
    let c := { r.conn with ring := r.conn.ring.append chunk }
    if maxReadBufBytes < c.ring.size then { r with conn := c.close true }
    else { conn := c, processing := true }

def Reader.round (s : Session) (onData : DataCallback σ) (r : Reader σ) : Reader σ :=
  match frame s r.conn.ring with
  | .stop => { r with processing := false }
  | .bad ring => { conn := { r.conn with ring }.close true, processing := false }
  | .packet pkt ring => { r with conn := { r.conn with ring }.deliver onData pkt }

def step (s : Session) (onData : DataCallback σ) (r : Reader σ) : Event → Option (Reader σ)
  | .read chunk =>
    if r.conn.reading ∧ r.processing = false then some (r.read chunk) else none
  | .readError =>
    if r.conn.reading ∧ r.processing = false then some { r with conn := r.conn.close true } else none
  | .round => if r.processing then some (r.round s onData) else none
  | .close onLoop =>
    -- the loop thread is not in two places
    if onLoop ∧ r.processing then none else some { r with conn := r.conn.close onLoop }
  | .closeAfterWrite => some { r with conn := r.conn.doCloseAfterWrite }
  | .doClose =>
    if r.conn.posted ∧ r.processing = false then
      some { r with conn := { r.conn with posted := false }.doClose }
    else none

def Entry.isPacket : Entry → Bool
  | .packet _ => true
  | .close => false

/-- No packet is passed on after `Close` has been called. -/
def Quiet (log : List Entry) : Prop := log.Pairwise fun a b => a = .close → b.isPacket = false

instance (log : List Entry) : Decidable (Quiet log) := by unfold Quiet; infer_instance

section Quiet

variable {log : List Entry}

theorem Quiet.packet (h : Quiet log) (hclose : .close ∉ log) (pkt : Packet) :
    Quiet (log ++ [.packet pkt]) := by
  refine List.pairwise_append.mpr ⟨h, List.pairwise_singleton _ _, ?_⟩
  intro a ha b _ hac
  exact absurd (hac ▸ ha) hclose

theorem Quiet.close (h : Quiet log) : Quiet (log ++ [.close]) := by
  refine List.pairwise_append.mpr ⟨h, List.pairwise_singleton _ _, ?_⟩
  intro a _ b hb _
  rw [List.mem_singleton] at hb
  rw [hb]
  rfl

/-- A packet after it is what is not allowed. -/
theorem not_quiet {more : List Entry} {pkt : Packet} (hclose : .close ∈ log) :
    ¬ Quiet (log ++ [.packet pkt] ++ more) := by
  intro h
  have hboth := (List.pairwise_append.mp h).1
  have hlast := (List.pairwise_append.mp hboth).2.2 .close hclose (.packet pkt)
    (List.mem_singleton.mpr rfl) rfl
  cases hlast

end Quiet

/-- Whether there is a whole packet in front. -/
def hasPacket (s : Session) (bs : Bytes) : Bool :=
  match nextPacket s bs with
  | .complete _ => true
  | _ => false

/-- A step that keeps quiet: when `Close` is called by `on_data_`, or by somebody else
during the rounds, there is no whole packet behind; and once it has been called, no
read completes one. -/
def Ok (s : Session) (onData : DataCallback σ) (r : Reader σ) : Event → Prop
  | .read chunk => .close ∈ r.conn.log → chunk ≠ [] →
      r.conn.ring.size + chunk.length ≤ maxReadBufBytes →
      hasPacket s (r.conn.ring.bytes ++ chunk) = false
  | .round => ∀ pkt rest, nextPacket s r.conn.ring.bytes = .complete (pkt, rest) →
      .close ∈ (onData r.conn.user pkt).2 → hasPacket s rest = false
  | .close _ => r.processing = true → hasPacket s r.conn.ring.bytes = false
  | .readError => True
  | .closeAfterWrite => True
  | .doClose => True

/-- Quiet so far, and nothing more to pass on after a call of `Close`. -/
structure Inv (s : Session) (r : Reader σ) : Prop where
  quiet : Quiet r.conn.log
  done : .close ∈ r.conn.log → r.processing = true → hasPacket s r.conn.ring.bytes = false

/-! ## What the calls do -/

section Calls

variable {c : Receiver σ}

theorem log_close (c : Receiver σ) (onLoop : Bool) : (c.close onLoop).log = c.log ++ [.close] := by
  unfold Receiver.close
  simp only
  split_ifs <;> rfl

theorem ring_close (c : Receiver σ) (onLoop : Bool) : (c.close onLoop).ring = c.ring := by
  unfold Receiver.close
  simp only
  split_ifs <;> rfl

theorem log_doCloseAfterWrite (c : Receiver σ) : c.doCloseAfterWrite.log = c.log := by
  unfold Receiver.doCloseAfterWrite
  split_ifs <;> rfl

theorem ring_doCloseAfterWrite (c : Receiver σ) : c.doCloseAfterWrite.ring = c.ring := by
  unfold Receiver.doCloseAfterWrite
  split_ifs <;> rfl

/-- The entries of some calls. -/
def closes (calls : List Call) : List Entry :=
  (calls.filter (· = .close)).map fun _ => .close

theorem log_calls (calls : List Call) (c : Receiver σ) :
    (calls.foldl Receiver.call c).log = c.log ++ closes calls := by
  induction calls generalizing c with
  | nil => exact (List.append_nil _).symm
  | cons a calls ih =>
    rw [List.foldl_cons, ih]
    cases a with
    | close =>
      change (c.close true).log ++ _ = _
      rw [log_close, List.append_assoc]
      rfl
    | closeAfterWrite =>
      change c.doCloseAfterWrite.log ++ _ = _
      rw [log_doCloseAfterWrite]
      rfl

theorem log_deliver (onData : DataCallback σ) (c : Receiver σ) (pkt : Packet) :
    (c.deliver onData pkt).log =
      c.log ++ [.packet pkt] ++ closes (onData c.user pkt).2 := log_calls _ _

theorem mem_closes {calls : List Call} (h : .close ∈ closes calls) : .close ∈ calls := by
  obtain ⟨a, ha, -⟩ := List.mem_map.mp h
  obtain ⟨hmem, hclose⟩ := List.mem_filter.mp ha
  rwa [of_decide_eq_true hclose] at hmem

theorem quiet_closes {log : List Entry} (h : Quiet log) (calls : List Call) :
    Quiet (log ++ closes calls) := by
  refine List.pairwise_append.mpr ⟨h, ?_, ?_⟩
  · refine List.pairwise_of_forall_mem_list ?_
    intro a _ b hb _
    obtain ⟨_, -, rfl⟩ := List.mem_map.mp hb
    rfl
  · intro a _ b hb _
    obtain ⟨_, -, rfl⟩ := List.mem_map.mp hb
    rfl

end Calls

/-! ## The steps -/

section Steps

variable {s : Session} {onData : DataCallback σ} {r r' : Reader σ}

theorem Inv.close (h : Inv s r) (onLoop : Bool)
    (hok : r.processing = true → hasPacket s r.conn.ring.bytes = false) :
    Inv s { r with conn := r.conn.close onLoop } where
  quiet := by
    change Quiet (r.conn.close onLoop).log
    rw [log_close]
    exact h.quiet.close
  done := by
    intro _ hp
    change hasPacket s (r.conn.close onLoop).ring.bytes = false
    rw [ring_close]
    exact hok hp

theorem Inv.read (h : Inv s r) {chunk : Bytes} (hidle : r.processing = false)
    (hok : Ok s onData r (.read chunk)) : Inv s (r.read chunk) := by
  have hidle' : ¬ r.processing = true := by simp [hidle]
  have hbytes := r.conn.ring.bytes_append chunk
  unfold Reader.read
  by_cases hnil : chunk = []
  · rw [if_pos hnil]
    exact h
  · rw [if_neg hnil]
    simp only
    split_ifs with hmax
    · refine ⟨?_, fun _ hp => absurd hp hidle'⟩
      change Quiet (Receiver.close _ true).log
      rw [log_close]
      exact h.quiet.close
    · refine ⟨h.quiet, fun hclose _ => ?_⟩
      change hasPacket s (r.conn.ring.append chunk).bytes = false
      rw [hbytes]
      refine hok hclose hnil ?_
      rw [← (r.conn.ring.append chunk).length_bytes, hbytes, List.length_append,
        r.conn.ring.length_bytes] at hmax
      omega

/-- A round passes on the packet in front of the buffer, or none. -/
theorem Inv.round (h : Inv s r) (hp : r.processing = true) (hok : Ok s onData r .round) :
    Inv s (r.round s onData) := by
  have hspec := frame_spec s r.conn.ring
  unfold Reader.round
  cases hframe : frame s r.conn.ring with
  | stop => exact ⟨h.quiet, fun _ hp' => by cases hp'⟩
  | bad ring =>
    refine ⟨?_, fun _ hp' => by cases hp'⟩
    change Quiet (Receiver.close _ true).log
    rw [log_close]
    exact h.quiet.close
  | packet pkt ring =>
    rw [hframe] at hspec
    have hwhole : hasPacket s r.conn.ring.bytes = true := by
      unfold hasPacket
      rw [show nextPacket s r.conn.ring.bytes = .complete (pkt, ring.bytes) from hspec]
    have hopen : .close ∉ r.conn.log := by
      intro hclose
      rw [h.done hclose hp] at hwhole
      cases hwhole
    have hlog := log_deliver onData { r.conn with ring } pkt
    refine ⟨?_, ?_⟩
    · change Quiet (Receiver.deliver onData { r.conn with ring } pkt).log
      rw [hlog]
      exact quiet_closes (h.quiet.packet hopen pkt) _
    · intro hclose _
      change hasPacket s (Receiver.deliver onData { r.conn with ring } pkt).ring.bytes = false
      rw [Receiver.ring_deliver]
      -- the call was made for this packet
      change .close ∈ (Receiver.deliver onData { r.conn with ring } pkt).log at hclose
      rw [hlog, List.mem_append, List.mem_append, List.mem_singleton] at hclose
      rcases hclose with (hbefore | hpkt) | hcall
      · exact absurd hbefore hopen
      · cases hpkt
      · exact hok pkt ring.bytes hspec (mem_closes hcall)

theorem Inv.step {e : Event} (hok : Ok s onData r e) (h : Inv s r)
    (hstep : step s onData r e = some r') : Inv s r' := by
  cases e with
  | read chunk =>
    simp only [TcpRead.step] at hstep
    split_ifs at hstep with hidle
    cases hstep
    exact h.read hidle.2 hok
  | readError =>
    simp only [TcpRead.step] at hstep
    split_ifs at hstep with hidle
    cases hstep
    exact h.close true fun hp => by rw [hidle.2] at hp; cases hp
  | round =>
    simp only [TcpRead.step] at hstep
    split_ifs at hstep with hp
    cases hstep
    exact h.round hp hok
  | close onLoop =>
    simp only [TcpRead.step] at hstep
    split_ifs at hstep with hbusy
    cases hstep
    exact h.close onLoop hok
  | closeAfterWrite =>
    cases hstep
    refine ⟨?_, ?_⟩
    · change Quiet r.conn.doCloseAfterWrite.log
      rw [log_doCloseAfterWrite]
      exact h.quiet
    · intro hclose hp
      change .close ∈ r.conn.doCloseAfterWrite.log at hclose
      change hasPacket s r.conn.doCloseAfterWrite.ring.bytes = false
      rw [log_doCloseAfterWrite] at hclose
      rw [ring_doCloseAfterWrite]
      exact h.done hclose hp
  | doClose =>
    simp only [TcpRead.step] at hstep
    split_ifs at hstep
    cases hstep
    exact ⟨h.quiet, h.done⟩

/-- A whole packet in front of the buffer is passed on by the next round, whatever has
been called. -/
theorem not_quiet_round (hp : r.processing = true) (hclose : .close ∈ r.conn.log)
    (hwhole : hasPacket s r.conn.ring.bytes = true) :
    ∃ r', step s onData r .round = some r' ∧ ¬ Quiet r'.conn.log := by
  have hspec := frame_spec s r.conn.ring
  have hstep : step s onData r .round = some (r.round s onData) := by
    unfold step
    rw [if_pos hp]
  refine ⟨_, hstep, ?_⟩
  unfold hasPacket at hwhole
  unfold Reader.round
  cases hframe : frame s r.conn.ring with
  | stop =>
    rw [hframe] at hspec
    split at hwhole
    · next p hnext => exact absurd hnext (Partial.not_complete hspec p)
    · cases hwhole
  | bad ring =>
    rw [hframe] at hspec
    rw [show nextPacket s r.conn.ring.bytes = .malformed from hspec] at hwhole
    cases hwhole
  | packet pkt ring =>
    change ¬ Quiet (Receiver.deliver onData { r.conn with ring } pkt).log
    rw [log_deliver]
    exact not_quiet hclose

/-- A step that is not allowed is seen in the round after it. -/
theorem not_quiet_of_not_ok {e : Event} (hok : ¬ Ok s onData r e)
    (hstep : step s onData r e = some r') :
    ∃ r'', step s onData r' .round = some r'' ∧ ¬ Quiet r''.conn.log := by
  cases e with
  | read chunk =>
    unfold Ok at hok
    push Not at hok
    obtain ⟨hclose, hnil, hmax, hwhole⟩ := hok
    rw [ne_eq, Bool.not_eq_false] at hwhole
    have hbytes := r.conn.ring.bytes_append chunk
    have hsize : ¬ maxReadBufBytes < (r.conn.ring.append chunk).size := by
      rw [← (r.conn.ring.append chunk).length_bytes, hbytes, List.length_append,
        r.conn.ring.length_bytes]
      omega
    simp only [step, Reader.read] at hstep
    rw [if_neg hnil] at hstep
    rw [if_neg hsize] at hstep
    split_ifs at hstep
    cases hstep
    refine not_quiet_round rfl hclose ?_
    rw [← hbytes] at hwhole
    exact hwhole
  | round =>
    unfold Ok at hok
    push Not at hok
    obtain ⟨pkt, rest, hnext, hcall, hwhole⟩ := hok
    rw [ne_eq, Bool.not_eq_false] at hwhole
    simp only [step] at hstep
    split_ifs at hstep with hp
    have hspec := frame_spec s r.conn.ring
    cases hstep
    unfold Reader.round
    cases hframe : frame s r.conn.ring with
    | stop =>
      rw [hframe] at hspec
      exact absurd hnext (Partial.not_complete hspec _)
    | bad ring =>
      rw [hframe] at hspec
      rw [show nextPacket s r.conn.ring.bytes = .malformed from hspec] at hnext
      cases hnext
    | packet pkt' ring =>
      rw [hframe] at hspec
      rw [show nextPacket s r.conn.ring.bytes = .complete (pkt', ring.bytes) from hspec] at hnext
      cases hnext
      refine not_quiet_round hp ?_ ?_
      · change .close ∈ (Receiver.deliver onData { r.conn with ring } pkt).log
        rw [log_deliver]
        refine List.mem_append_right _ (List.mem_map.mpr ⟨.close, ?_, rfl⟩)
        exact List.mem_filter.mpr ⟨hcall, rfl⟩
      · change hasPacket s (Receiver.deliver onData { r.conn with ring } pkt).ring.bytes = true
        rw [Receiver.ring_deliver]
        exact hwhole
  | close onLoop =>
    unfold Ok at hok
    push Not at hok
    obtain ⟨hp, hwhole⟩ := hok
    rw [ne_eq, Bool.not_eq_false] at hwhole
    simp only [step] at hstep
    split_ifs at hstep
    cases hstep
    refine not_quiet_round hp ?_ ?_
    · change .close ∈ (r.conn.close onLoop).log
      rw [log_close]
      exact List.mem_append_right _ (List.mem_singleton.mpr rfl)
    · change hasPacket s (r.conn.close onLoop).ring.bytes = true
      rw [ring_close]
      exact hwhole
  | readError => exact absurd trivial hok
  | closeAfterWrite => exact absurd trivial hok
  | doClose => exact absurd trivial hok

end Steps

/-! ## Runs -/

/-- In a run whose steps are all allowed, no packet is passed on after `Close`, and after
a step that is not allowed, the next round passes one on. -/
theorem quiet_run (s : Session) (onData : DataCallback σ) (ring : RingBuffer) (user : σ)
    (events : List Event) (r : Reader σ)
    (hrun : run (step s onData) { conn := Receiver.init ring user } events = some r) :
    (RunOk (step s onData) (Ok s onData) { conn := Receiver.init ring user } events →
        Quiet r.conn.log) ∧
      ∀ e r', step s onData r e = some r' → ¬ Ok s onData r e →
        ∃ r'', step s onData r' .round = some r'' ∧ ¬ Quiet r''.conn.log := by
  constructor
  · intro hok
    have hinit : Inv s ({ conn := Receiver.init ring user } : Reader σ) :=
      ⟨List.Pairwise.nil, fun hclose => by cases hclose⟩
    have hinv : Inv s r :=
      run_invariant (fun _ _ _ hok h hstep => Inv.step hok h hstep) hinit hok hrun
    exact hinv.quiet
  · intro e r' hstep hok
    exact not_quiet_of_not_ok hok hstep

/-- The front of a packet, then `Close` from another thread. -/
theorem quiet_run_partial :
    let start : Reader Unit := { conn := Receiver.init (RingBuffer.new 64 (by decide)) () }
    let onData : DataCallback Unit := fun _ _ => ((), [.close])
    ∃ r, run (step {} onData) start [.read [0, 0, 0, 40], .round, .close false, .doClose] = some r ∧
      Quiet r.conn.log := by
  intro start onData
  let events : List Event := [.read [0, 0, 0, 40], .round, .close false, .doClose]
  have hsome : (run (step {} onData) start events).isSome = true := by decide
  obtain ⟨r, hrun⟩ := Option.isSome_iff_exists.mp hsome
  refine ⟨r, hrun, (quiet_run {} onData (RingBuffer.new 64 (by decide)) () events r hrun).1 ?_⟩
  refine ⟨fun hclose => absurd hclose List.not_mem_nil, fun r1 h1 => ?_⟩
  cases h1
  refine ⟨fun _ _ hnext => ?_, fun r2 h2 => ?_⟩
  · cases hnext
  cases h2
  refine ⟨fun hp => ?_, fun r3 h3 => ?_⟩
  · cases hp
  cases h3
  exact ⟨trivial, fun _ _ => trivial⟩

/-- Two packets of a client that has not shaken hands, in one read: the encryption
middleware closes the connection at the first, and is passed the second. -/
theorem not_quiet_encryption :
    let nobody : Handshakes Unit :=
      { isHandshaked := fun _ => false, getSessionKey := fun _ => [],
        decryptPacketPayload := fun _ _ => none }
    let onData : DataCallback Unit := onConnData (fun _ _ => ((), [])) [encryptionMiddleware nobody]
    let ring := RingBuffer.new RingBuffer.defaultCap (by decide)
    ∃ events r, run (step {} onData) { conn := Receiver.init ring () } events = some r ∧
      ¬ Quiet r.conn.log := by
  intro nobody onData ring
  let pkt : Packet := { header := { cmdId := 1 }, payload := [] }
  let stream := encodePacket pkt ++ encodePacket pkt
  let start : Reader Unit := { conn := Receiver.init ring () }
  have hbytes : (ring.append stream).bytes = stream := by
    rw [ring.bytes_append, RingBuffer.bytes_new, List.nil_append]
  have hsize : ¬ maxReadBufBytes < (ring.append stream).size := by
    rw [← (ring.append stream).length_bytes, hbytes]
    decide
  let busy : Reader Unit := { conn := { start.conn with ring := ring.append stream }, processing := true }
  have hread : step {} onData start (.read stream) = some busy := by
    have hstart : start.read stream = busy := by
      unfold Reader.read
      rw [if_neg (by decide)]
      exact if_neg hsize
    simp only [step]
    rw [hstart]
    rfl
  have hnext : nextPacket {} stream = .complete (pkt.sized, encodePacket pkt) := by decide
  have hround : step {} onData busy .round = some (busy.round {} onData) := rfl
  -- the packet behind the one at which the connection is closed
  have hbad : ¬ Ok {} onData busy .round := by
    intro hok
    have hbusy : busy.conn.ring.bytes = stream := hbytes
    have hnone := hok pkt.sized (encodePacket pkt) (by rw [hbusy, hnext]) (List.mem_singleton.mpr rfl)
    revert hnone
    decide
  obtain ⟨r, hlast, hquiet⟩ := not_quiet_of_not_ok hbad hround
  refine ⟨[.read stream, .round, .round], r, ?_, hquiet⟩
  change run _ start _ = _
  rw [run_cons, hread, Option.bind_some, run_cons, hround, Option.bind_some, run_cons, hlast]
  rfl

end Gmaker.Net.TcpRead
