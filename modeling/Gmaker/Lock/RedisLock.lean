import Gmaker.Lib.Expiring
import Gmaker.Lib.Machine
import Gmaker.Lib.Threads

/-!
# Gmaker.Lock.RedisLock — a lock that is a key with a random value

`TryLock` sets the key of the lock to a value drawn at random if there is nothing under it;
`Unlock` and `Extend` are scripts that look at the value first. Any number of clients use the
lock. A command is executed in one go, but when, and how often, is open: it may be repeated by
the connection, it may be executed long after its caller has given up, and its reply may be
lost. Time passes in between.

Only the values keep the clients apart. Where no value is drawn twice, whoever's value is
stored has set it, and no other client's commands touch it (`RedisLocks.mutualExclusion`).
-/

namespace Gmaker.Lock

open Gmaker.Lib

/-- `hex.EncodeToString`. -/
def hexEncode (b : List UInt8) : String :=
  String.ofList (b.flatMap fun x => [Nat.digitChar (x.toNat / 16), Nat.digitChar (x.toNat % 16)])

/-- `randomValue`: so many bytes are read. -/
def randomBytes : ℕ := 16

/-! ## The system -/

/-- A call of `TryLock`, and the lease that it returned if it did. -/
structure Client where
  /-- What `randomValue` returned. -/
  value : String
  /-- `Lease.value`; the empty text is a lease that was given back. -/
  lease : Option String
deriving DecidableEq

/-- What is sent to the server. -/
inductive Command where
  | setNX (value : String) (ttl : ℤ)
  /-- `unlockScript`. -/
  | unlock (value : String)
  /-- The script of `Extend`. -/
  | extend (value : String) (ms : ℕ)
deriving DecidableEq

/-- The value in a command. -/
def Command.value : Command → String
  | setNX value _ | unlock value | extend value _ => value

/-- A command under way, the server's last reply to it, and whether its caller still waits. -/
structure Call where
  client : ℕ
  command : Command
  reply : Option Bool
  waiting : Bool
deriving DecidableEq

/-- The key of the lock, the clients and their commands. -/
structure RedisLocks where
  now : ℕ
  key : Key String
  /-- Which client's `SetNX` was the last to set the key. -/
  owner : Option ℕ
  clients : List Client
  calls : List Call
deriving DecidableEq

inductive LockEvent where
  /-- A client draws a value and sends `SetNX`. -/
  | tryLock (ttl : ℤ) (bytes : List UInt8)
  | unlock (i : ℕ)
  | extend (i : ℕ) (ttl : ℤ)
  /-- The server executes a command. -/
  | exec (c : ℕ)
  /-- The reply arrives. -/
  | reply (c : ℕ)
  /-- The caller gives up with an error. -/
  | fail (c : ℕ)
  | elapse (d : ℕ)
deriving DecidableEq

/-- What the server does to the key; no reply is an error. -/
def Command.exec (key : Key String) (now : ℕ) : Command → Option (Bool × Key String)
  | setNX value ttl => (Key.setNXExpiry ttl).map fun expiry => key.setNX now value expiry
  | unlock value => some (key.delIfEq now value)
  | extend value ms => some (key.pexpireIfEq now value ms)

/-- The command is the one that sets the key, and it did. -/
def Command.Sets (command : Command) (ok : Bool) : Prop :=
  ∃ value ttl, command = .setNX value ttl ∧ ok = true

/-- What the caller does with the reply. -/
def Client.receive (x : Client) : Command → Bool → Client
  | .setNX value _, true => { x with lease := some value }
  | .unlock _, true => { x with lease := some "" }
  | _, _ => x

@[simp] theorem Client.receive_value (x : Client) (command : Command) (ok : Bool) :
    (x.receive command ok).value = x.value := by
  unfold receive
  split <;> rfl

namespace Command

variable {key key' : Key String} {now : ℕ} {ok : Bool} {t : Timed String}

theorem not_sets_unlock (value : String) : ¬(unlock value).Sets ok := by
  rintro ⟨_, _, hne, -⟩
  cases hne

theorem not_sets_extend (value : String) (ms : ℕ) : ¬(extend value ms).Sets ok := by
  rintro ⟨_, _, hne, -⟩
  cases hne

/-- What is under the key after a command was set by it, or was there before. -/
theorem exec_value {command : Command} (h : command.exec key now = some (ok, key'))
    (ht : key' = some t) :
    (command.Sets ok ∧ t.value = command.value) ∨
      ¬command.Sets ok ∧ ∃ t', key.present now = some t' ∧ t'.value = t.value := by
  cases command with
  | setNX value ttl =>
    obtain ⟨expiry, -, heq⟩ := Option.map_eq_some_iff.mp h
    cases hkey : key.present now with
    | none =>
      -- nothing was there
      rw [Key.setNX_of_none hkey] at heq
      cases heq
      cases ht
      exact .inl ⟨⟨value, ttl, rfl, rfl⟩, rfl⟩
    | some t' =>
      rw [Key.setNX_of_some hkey] at heq
      cases heq
      cases ht
      refine .inr ⟨?_, t, rfl, rfl⟩
      rintro ⟨_, _, _, hok⟩
      cases hok
  | unlock value =>
    refine .inr ⟨not_sets_unlock value, ?_⟩
    have heq : key.delIfEq now value = (ok, key') := Option.some.inj h
    exact Key.delIfEq_value (v := value) (by rw [heq, ht])
  | extend value ms =>
    refine .inr ⟨not_sets_extend value ms, ?_⟩
    have heq : key.pexpireIfEq now value ms = (ok, key') := Option.some.inj h
    refine Key.pexpireIfEq_value (v := value) ms ?_
    rw [heq, ht]

/-- A command with another value leaves what is stored as it is. -/
theorem exec_of_ne {command : Command} (h : command.exec key now = some (ok, key'))
    (hkey : key.present now = some t) (hne : t.value ≠ command.value) :
    ok = false ∧ key' = some t := by
  have hother : ∀ u, key.present now = some u → u.value ≠ command.value := by
    intro u hu
    cases hkey.symm.trans hu
    exact hne
  cases command with
  | setNX value ttl =>
    obtain ⟨expiry, -, heq⟩ := Option.map_eq_some_iff.mp h
    rw [Key.setNX_of_some hkey] at heq
    cases heq
    exact ⟨rfl, rfl⟩
  | unlock value =>
    have heq := Option.some.inj h
    rw [Key.delIfEq_of_ne (v := value) hother, hkey] at heq
    cases heq
    exact ⟨rfl, rfl⟩
  | extend value ms =>
    have heq := Option.some.inj h
    rw [Key.pexpireIfEq_of_ne (v := value) hother, hkey] at heq
    cases heq
    exact ⟨rfl, rfl⟩

/-- Unlocking and prolonging leave nothing under the key where there was nothing. -/
theorem exec_of_none {command : Command} (h : command.exec key now = some (ok, key'))
    (hkey : key.present now = none) (hset : ¬command.Sets ok) : key' = none := by
  cases hkey' : key' with
  | none => rfl
  | some t =>
    rcases exec_value h hkey' with ⟨hsets, -⟩ | ⟨-, t', ht', -⟩
    · exact absurd hsets hset
    · rw [hkey] at ht'
      cases ht'

end Command

namespace RedisLocks

/-- A free lock, which nobody has asked for yet. -/
def new : RedisLocks := ⟨0, none, none, [], []⟩

/-- A command is sent. -/
def send (s : RedisLocks) (i : ℕ) (command : Command) : RedisLocks :=
  { s with calls := s.calls ++ [⟨i, command, none, true⟩] }

/-- The server executes the command of a call. -/
def execute (s : RedisLocks) (c : ℕ) (call : Call) : RedisLocks :=
  match call.command.exec s.key s.now with
  | none => s
  | some (ok, key) =>
    { s with
      key := key
      owner :=
        match call.command, ok with
        | .setNX _ _, true => some call.client
        | _, _ => s.owner
      calls := s.calls.set c { call with reply := some ok } }

/-- One event. -/
def next (s : RedisLocks) : LockEvent → Option RedisLocks
  | .tryLock ttl bytes =>
    if bytes.length = randomBytes then
      let value := hexEncode bytes
      some { s.send s.clients.length (.setNX value ttl) with
        clients := s.clients ++ [⟨value, none⟩] }
    else none
  | .unlock i => (s.clients[i]?).bind fun x => x.lease.map fun value =>
    -- "lock not held"
    if value = "" then s else s.send i (.unlock value)
  | .extend i ttl => (s.clients[i]?).bind fun x => x.lease.map fun value =>
    -- "lock not held", "invalid ttl: must be positive"
    if value = "" ∨ ttl ≤ 0 then s else s.send i (.extend value (ttl / 1000000).toNat)
  | .exec c => (s.calls[c]?).map fun call => s.execute c call
  | .reply c => (s.calls[c]?).bind fun call => (s.clients[call.client]?).bind fun x =>
    call.reply.bind fun ok =>
      if call.waiting then
        some { s with
          clients := s.clients.set call.client (x.receive call.command ok)
          calls := s.calls.set c { call with waiting := false } }
      else none
  | .fail c => (s.calls[c]?).map fun call =>
    { s with calls := s.calls.set c { call with waiting := false } }
  | .elapse d => some { s with now := s.now + d }

/-- What the store holds at this moment. -/
def stored (s : RedisLocks) : Key String := s.key.present s.now

/-- The values of the clients. -/
def values (s : RedisLocks) : List String := s.clients.map Client.value

/-- The stored value is the client's. -/
def Holds (s : RedisLocks) (i : ℕ) : Prop :=
  ∃ t, s.stored = some t ∧ s.values[i]? = some t.value

/-- The values that are drawn in a run. -/
def drawn (ls : List LockEvent) : List String :=
  ls.filterMap fun
    | .tryLock _ bytes => some (hexEncode bytes)
    | _ => none

/-- The event is the execution of one of the client's own commands. -/
def IsOwn (s : RedisLocks) (i : ℕ) (e : LockEvent) : Prop :=
  ∃ c call, e = .exec c ∧ s.calls[c]? = some call ∧ call.client = i

/-- The event is the execution of the script of an `Unlock` or an `Extend` of the client. -/
def IsScript (s : RedisLocks) (i : ℕ) (e : LockEvent) : Prop :=
  ∃ c call, e = .exec c ∧ s.calls[c]? = some call ∧ call.client = i ∧
    ∀ value ttl, call.command ≠ .setNX value ttl

/-! ## What a step does -/

variable {s s' : RedisLocks} {e : LockEvent} {c i j : ℕ} {call : Call} {t : Timed String}

@[simp] theorem values_send (i : ℕ) (command : Command) : (s.send i command).values = s.values :=
  rfl

@[simp] theorem execute_values (c : ℕ) (call : Call) : (s.execute c call).values = s.values := by
  unfold execute
  split <;> rfl

/-- A client keeps its value, and new clients come after the old ones. -/
theorem next_values (h : s.next e = some s') : s'.values = s.values ++ drawn [e] := by
  cases e with
  | tryLock ttl bytes =>
    simp only [next, Option.ite_none_right_eq_some, Option.some.injEq] at h
    obtain ⟨-, rfl⟩ := h
    exact List.map_append
  | unlock i =>
    simp only [next, Option.bind_eq_some_iff, Option.map_eq_some_iff] at h
    obtain ⟨x, -, value, -, rfl⟩ := h
    change _ = s.values ++ []
    rw [List.append_nil]
    split_ifs <;> rfl
  | extend i ttl =>
    simp only [next, Option.bind_eq_some_iff, Option.map_eq_some_iff] at h
    obtain ⟨x, -, value, -, rfl⟩ := h
    change _ = s.values ++ []
    rw [List.append_nil]
    split_ifs <;> rfl
  | exec c =>
    obtain ⟨call, -, rfl⟩ := Option.map_eq_some_iff.mp h
    rw [execute_values]
    exact (List.append_nil _).symm
  | reply c =>
    simp only [next, Option.bind_eq_some_iff, Option.ite_none_right_eq_some, Option.some.injEq] at h
    obtain ⟨call, -, x, hx, ok, -, -, rfl⟩ := h
    change (s.clients.set call.client (x.receive call.command ok)).map Client.value = _ ++ []
    rw [List.map_set, Client.receive_value, List.append_nil]
    have hvalue : (s.clients.map Client.value)[call.client]? = some x.value := by
      rw [List.getElem?_map, hx]
      rfl
    exact set_same hvalue
  | fail c =>
    obtain ⟨call, -, rfl⟩ := Option.map_eq_some_iff.mp h
    exact (List.append_nil _).symm
  | elapse d =>
    cases h
    exact (List.append_nil _).symm

/-- The values of a run that starts with a free lock. -/
theorem run_values {ls : List LockEvent} (h : run next s ls = some s') :
    s'.values = s.values ++ drawn ls := by
  induction ls generalizing s with
  | nil =>
    cases h
    exact (List.append_nil _).symm
  | cons e ls ih =>
    obtain ⟨u, hu, hrest⟩ := run_cons_eq_some.mp h
    have hcons : drawn (e :: ls) = drawn [e] ++ drawn ls := by
      unfold drawn
      rw [← List.filterMap_append]
      rfl
    rw [ih hrest, next_values hu, List.append_assoc, hcons]

/-! ## The invariant -/

/-- A call carries the value of its client. -/
def Carries (values : List String) (call : Call) : Prop :=
  values[call.client]? = some call.command.value

/-- A lease that was not given back has the value that was drawn. -/
def Leased (x : Client) : Prop := ∀ v, x.lease = some v → v = x.value ∨ v = ""

/-- The value under the key is the one of the client that set it, and every command carries
the value of its client. -/
structure Inv (s : RedisLocks) : Prop where
  setter : ∀ t, s.key = some t → ∃ i, s.owner = some i ∧ s.values[i]? = some t.value
  sent : ∀ (c : ℕ) (call : Call), s.calls[c]? = some call → Carries s.values call
  leased : ∀ (i : ℕ) (x : Client), s.clients[i]? = some x → Leased x

theorem inv_new : Inv new := by
  constructor
  · intro t ht
    cases ht
  · intro c call hc
    cases hc
  · intro i x hx
    cases hx

/-- A value that was there stays where it is. -/
theorem getElem?_append_of_values {values more : List String} {v : String}
    (hi : values[i]? = some v) : (values ++ more)[i]? = some v := by
  rw [List.getElem?_append_left (List.getElem?_eq_some_iff.mp hi).1]
  exact hi

/-- What the execution of a command leaves: what the server did to the key, and whose it is. -/
theorem execute_cases (c : ℕ) (call : Call) :
    (call.command.exec s.key s.now = none ∧ s.execute c call = s) ∨
      ∃ ok key owner, call.command.exec s.key s.now = some (ok, key) ∧
        (call.command.Sets ok ∧ owner = some call.client ∨
          ¬call.command.Sets ok ∧ owner = s.owner) ∧
        s.execute c call = { s with
          key := key
          owner := owner
          calls := s.calls.set c { call with reply := some ok } } := by
  unfold execute
  rcases hexec : call.command.exec s.key s.now with _ | ⟨ok, key⟩
  · exact .inl ⟨rfl, rfl⟩
  · refine .inr ⟨ok, key, _, rfl, ?_, rfl⟩
    split
    · rename_i hcommand
      exact .inl ⟨⟨_, _, hcommand, rfl⟩, rfl⟩
    · rename_i hnot
      refine .inr ⟨?_, rfl⟩
      rintro ⟨value, ttl, hcommand, rfl⟩
      exact hnot value ttl hcommand rfl

theorem Inv.send {command : Command} (h : Inv s) (hi : s.values[i]? = some command.value) :
    Inv (s.send i command) := by
  refine ⟨h.setter, ?_, h.leased⟩
  show ∀ c call, (s.calls ++ [⟨i, command, none, true⟩])[c]? = some call → Carries s.values call
  exact forall_append hi h.sent

theorem Inv.execute (h : Inv s) (hc : s.calls[c]? = some call) : Inv (s.execute c call) := by
  rcases execute_cases (s := s) c call with ⟨-, heq⟩ | ⟨ok, key, owner, hexec, howner, heq⟩
  · rw [heq]
    exact h
  rw [heq]
  refine ⟨fun t ht => ?_, ?_, h.leased⟩
  · rcases Command.exec_value hexec ht with ⟨hset, hvalue⟩ | ⟨hnot, t', ht', hvalue⟩
    · -- the client has just set the key
      rcases howner with ⟨-, rfl⟩ | ⟨hnot, -⟩
      · refine ⟨call.client, rfl, ?_⟩
        rw [hvalue]
        exact h.sent c call hc
      · exact absurd hset hnot
    · -- what was there is still there
      rcases howner with ⟨hset, -⟩ | ⟨-, rfl⟩
      · exact absurd hset hnot
      · rw [← hvalue]
        exact h.setter t' (Key.present_eq_some.mp ht').1
  · show ∀ d other, (s.calls.set c { call with reply := some ok })[d]? = some other →
      Carries s.values other
    exact forall_set hc (h.sent c call hc) h.sent

/-- The value that a lease sends. -/
theorem Inv.lease_value {x : Client} {v : String} (h : Inv s) (hx : s.clients[i]? = some x)
    (hlease : x.lease = some v) (hv : v ≠ "") : s.values[i]? = some v := by
  rcases h.leased i x hx v hlease with rfl | hempty
  · unfold values
    rw [List.getElem?_map, hx]
    rfl
  · exact absurd hempty hv

theorem leased_receive {x : Client} {command : Command} (ok : Bool) (h : Leased x)
    (hvalue : command.value = x.value) : Leased (x.receive command ok) := by
  unfold Client.receive
  split
  · intro v hv
    cases hv
    exact .inl hvalue
  · intro v hv
    cases hv
    exact .inr rfl
  · exact h

theorem Inv.next (h : Inv s) (hs : s.next e = some s') : Inv s' := by
  have hvalues := next_values hs
  cases e with
  | tryLock ttl bytes =>
    simp only [RedisLocks.next, Option.ite_none_right_eq_some, Option.some.injEq] at hs
    obtain ⟨-, rfl⟩ := hs
    constructor
    · intro t ht
      obtain ⟨i, hi, hv⟩ := h.setter t ht
      refine ⟨i, hi, ?_⟩
      rw [hvalues]
      exact getElem?_append_of_values hv
    · rw [hvalues]
      show ∀ c call, (s.calls ++ [_])[c]? = some call → _
      refine forall_append ?_ fun c call hc => getElem?_append_of_values (h.sent c call hc)
      -- the new client is the last one
      have hlast : s.clients.length = s.values.length := (List.length_map _).symm
      show (s.values ++ [hexEncode bytes])[s.clients.length]? = some (hexEncode bytes)
      rw [getElem?_append_singleton, if_pos hlast]
    · show ∀ i x, (s.clients ++ [_])[i]? = some x → Leased x
      refine forall_append ?_ h.leased
      intro v hv
      cases hv
  | unlock i =>
    simp only [RedisLocks.next, Option.bind_eq_some_iff, Option.map_eq_some_iff] at hs
    obtain ⟨x, hx, value, hlease, rfl⟩ := hs
    split_ifs with hempty
    · exact h
    · exact h.send (h.lease_value hx hlease hempty)
  | extend i ttl =>
    simp only [RedisLocks.next, Option.bind_eq_some_iff, Option.map_eq_some_iff] at hs
    obtain ⟨x, hx, value, hlease, rfl⟩ := hs
    split_ifs with hempty
    · exact h
    · exact h.send (h.lease_value hx hlease fun hv => hempty (.inl hv))
  | exec c =>
    obtain ⟨call, hc, rfl⟩ := Option.map_eq_some_iff.mp hs
    exact h.execute hc
  | reply c =>
    simp only [RedisLocks.next, Option.bind_eq_some_iff, Option.ite_none_right_eq_some,
      Option.some.injEq] at hs
    obtain ⟨call, hc, x, hx, ok, -, -, rfl⟩ := hs
    have hcall := h.sent c call hc
    have hvalue : call.command.value = x.value := by
      unfold Carries values at hcall
      rw [List.getElem?_map, hx] at hcall
      exact (Option.some.inj hcall).symm
    have hsame := hvalues.trans (List.append_nil _)
    constructor
    · rw [hsame]
      exact h.setter
    · rw [hsame]
      show ∀ d other, (s.calls.set c { call with waiting := false })[d]? = some other → _
      exact forall_set hc hcall h.sent
    · show ∀ i y, (s.clients.set call.client (x.receive call.command ok))[i]? = some y → Leased y
      exact forall_set hx (leased_receive ok (h.leased _ x hx) hvalue) h.leased
  | fail c =>
    obtain ⟨call, hc, rfl⟩ := Option.map_eq_some_iff.mp hs
    refine ⟨h.setter, ?_, h.leased⟩
    show ∀ d other, (s.calls.set c { call with waiting := false })[d]? = some other →
      Carries s.values other
    exact forall_set hc (h.sent c call hc) h.sent
  | elapse d =>
    cases hs
    exact ⟨h.setter, h.sent, h.leased⟩

theorem inv_run {ls : List LockEvent} (hrun : run RedisLocks.next new ls = some s) : Inv s :=
  run_invariant_all (fun _ _ _ h hs => h.next hs) inv_new hrun

/-! ## Whose lease a step touches -/

/-- Everything but the execution of a command leaves the key alone; time may take it away. -/
theorem next_key (h : s.next e = some s') (hexec : ∀ c, e ≠ .exec c) :
    s'.key = s.key ∧ s.now ≤ s'.now := by
  cases e with
  | tryLock ttl bytes =>
    simp only [RedisLocks.next, Option.ite_none_right_eq_some, Option.some.injEq] at h
    obtain ⟨-, rfl⟩ := h
    exact ⟨rfl, le_rfl⟩
  | unlock i =>
    simp only [RedisLocks.next, Option.bind_eq_some_iff, Option.map_eq_some_iff] at h
    obtain ⟨x, -, value, -, rfl⟩ := h
    split_ifs <;> exact ⟨rfl, le_rfl⟩
  | extend i ttl =>
    simp only [RedisLocks.next, Option.bind_eq_some_iff, Option.map_eq_some_iff] at h
    obtain ⟨x, -, value, -, rfl⟩ := h
    split_ifs <;> exact ⟨rfl, le_rfl⟩
  | exec c => exact absurd rfl (hexec c)
  | reply c =>
    simp only [RedisLocks.next, Option.bind_eq_some_iff, Option.ite_none_right_eq_some,
      Option.some.injEq] at h
    obtain ⟨call, -, x, -, ok, -, -, rfl⟩ := h
    exact ⟨rfl, le_rfl⟩
  | fail c =>
    obtain ⟨call, -, rfl⟩ := Option.map_eq_some_iff.mp h
    exact ⟨rfl, le_rfl⟩
  | elapse d =>
    cases h
    exact ⟨rfl, Nat.le_add_right _ d⟩

/-- Where no value was drawn twice, one client holds the lock at most. -/
theorem holds_inj (hdistinct : s.values.Nodup) (hi : s.Holds i) (hj : s.Holds j) : i = j := by
  obtain ⟨t, ht, hvi⟩ := hi
  obtain ⟨u, hu, hvj⟩ := hj
  cases ht.symm.trans hu
  exact (List.getElem?_inj (List.getElem?_eq_some_iff.mp hvi).1 hdistinct).mp (hvi.trans hvj.symm)

/-- A command with another client's value leaves the key as it is found. -/
theorem stored_execute_of_ne (hstored : s.stored = some t) (hne : t.value ≠ call.command.value) :
    (s.execute c call).stored = s.stored ∧ (s.execute c call).now = s.now := by
  rcases execute_cases (s := s) c call with ⟨-, heq⟩ | ⟨ok, key, owner, hexec, -, heq⟩
  · rw [heq]
    exact ⟨rfl, rfl⟩
  · rw [heq]
    obtain ⟨-, rfl⟩ := Command.exec_of_ne hexec hstored hne
    refine ⟨?_, rfl⟩
    rw [hstored]
    exact Key.present_eq_some.mpr ⟨rfl, (Key.present_eq_some.mp hstored).2⟩

/-- Nobody but its holder and time takes a lease away or changes it. -/
theorem stored_of_not_own (h : Inv s) (hdistinct : s.values.Nodup) (hs : s.next e = some s')
    (hi : s.Holds i) (hown : ¬s.IsOwn i e) : s'.stored = s.stored.present s'.now := by
  by_cases hexec : ∃ c, e = .exec c
  · obtain ⟨c, rfl⟩ := hexec
    obtain ⟨call, hc, rfl⟩ := Option.map_eq_some_iff.mp hs
    obtain ⟨t, ht, hvi⟩ := hi
    have hne : t.value ≠ call.command.value := by
      intro heq
      -- the value would be drawn by two clients
      have hcall := h.sent c call hc
      rw [Carries, ← heq] at hcall
      refine hown ⟨c, call, rfl, hc, ?_⟩
      exact (List.getElem?_inj (List.getElem?_eq_some_iff.mp hcall).1 hdistinct).mp
        (hcall.trans hvi.symm)
    obtain ⟨hstored, hnow⟩ := stored_execute_of_ne (c := c) ht hne
    rw [hstored, hnow]
    exact (Key.present_present le_rfl).symm
  · obtain ⟨hkey, hnow⟩ := next_key hs fun c hc => hexec ⟨c, hc⟩
    rw [stored, hkey]
    exact (Key.present_present hnow).symm

/-- The scripts of a client whose lease is over leave the key as they find it. -/
theorem stored_of_script (h : Inv s) (hs : s.next e = some s') (hi : ¬s.Holds i)
    (hscript : s.IsScript i e) : s'.stored = s.stored := by
  obtain ⟨c, call, rfl, hc, rfl, hnot⟩ := hscript
  obtain ⟨other, hother, rfl⟩ := Option.map_eq_some_iff.mp hs
  cases hc.symm.trans hother
  rcases hstored : s.stored with _ | t
  · -- there is nothing to delete or to prolong
    rcases execute_cases (s := s) c call with ⟨-, heq⟩ | ⟨ok, key, owner, hexec, -, heq⟩
    · rw [heq, hstored]
    · have hset : ¬call.command.Sets ok := fun ⟨value, ttl, heq, _⟩ => hnot value ttl heq
      rw [heq, Command.exec_of_none hexec hstored hset]
      rfl
  · rw [← hstored]
    refine (stored_execute_of_ne hstored fun heq => hi ⟨t, hstored, ?_⟩).1
    rw [heq]
    exact h.sent c call hc

/-- Where all values that are drawn are different, in every state of every run: the stored
value is that of one client at most, and it is there because this client has set it; while it is
there, nobody else's command changes or deletes it; and the scripts of a client that does not
hold the lock, or not any more, change nothing. -/
theorem mutualExclusion {ls : List LockEvent} (hdistinct : (drawn ls).Nodup)
    (hrun : run RedisLocks.next new ls = some s) :
    (∀ i j, s.Holds i → s.Holds j → i = j) ∧
      (∀ t, s.stored = some t → ∃ i, s.owner = some i ∧ s.Holds i) ∧
      ∀ e s', s.next e = some s' →
        (∀ i, s.Holds i → ¬s.IsOwn i e → s'.stored = s.stored.present s'.now) ∧
          ∀ i, ¬s.Holds i → s.IsScript i e → s'.stored = s.stored := by
  have hinv := inv_run hrun
  have hvalues : s.values.Nodup := by
    rw [run_values hrun]
    exact hdistinct
  refine ⟨fun i j hi hj => holds_inj hvalues hi hj, fun t ht => ?_, fun e s' hs => ⟨?_, ?_⟩⟩
  · obtain ⟨i, howner, hi⟩ := hinv.setter t (Key.present_eq_some.mp ht).1
    exact ⟨i, howner, t, ht, hi⟩
  · intro i hi hown
    exact stored_of_not_own hinv hvalues hs hi hown
  · intro i hi hscript
    exact stored_of_script hinv hs hi hscript

/-- A client outlives its lease and unlocks when another one has the lock. -/
def takenOver : List LockEvent :=
  [.tryLock 1000000000 (List.replicate 16 0), .exec 0, .reply 0, .elapse 1001,
    .tryLock 1000000000 (List.replicate 16 1), .exec 1, .reply 1, .unlock 0]

theorem mutualExclusion_takenOver : ∃ s s', run next new takenOver = some s ∧
    s.next (.exec 2) = some s' ∧ s.Holds 1 ∧ (∀ i, s.Holds i → i = 1) ∧
      s'.stored = s.stored := by
  have hsteps : (run next new takenOver).bind (fun s => (s.next (.exec 2)).map fun _ =>
      decide (s.stored.map Timed.value = s.values[1]? ∧ s.stored ≠ none ∧
        s.calls[2]? = some ⟨0, .unlock (hexEncode (List.replicate 16 0)), none, true⟩)) =
      some true := by
    decide
  obtain ⟨s, hs, hmap⟩ := Option.bind_eq_some_iff.mp hsteps
  obtain ⟨s', hs', hdec⟩ := Option.map_eq_some_iff.mp hmap
  obtain ⟨hvalue, hsome, hcall⟩ := of_decide_eq_true hdec
  obtain ⟨t, ht⟩ := Option.ne_none_iff_exists'.mp hsome
  have hholds : s.Holds 1 := ⟨t, ht, by rw [← hvalue, ht]; rfl⟩
  obtain ⟨honly, -, hstep⟩ := mutualExclusion (by decide) hs
  refine ⟨s, s', hs, hs', hholds, fun i hi => honly i 1 hi hholds, ?_⟩
  refine (hstep (.exec 2) s' hs').2 0 (fun h0 => absurd (honly 0 1 h0 hholds) (by decide)) ?_
  refine ⟨2, _, rfl, hcall, rfl, fun value ttl hne => ?_⟩
  cases hne

end RedisLocks

end Gmaker.Lock
