import Gmaker.Lib.Machine
import Gmaker.Net.Packet

/-!
# Gmaker.Net.KcpServer — connections by number and by address

`KCPServer` finds a connection by the number in its datagrams (`conns_by_conv_`), and by address it
has the numbers (`conv_by_addr_`), so that an address with a connection gets no second one.
Datagrams and the timer are the loop's. `Close` may be called on any thread; there `on_close_` takes
the connection out of one map and then out of the other.

Every connection of the first map is the one of its address, all along a run, if and only if no
`on_close_` takes away an address that a connection of the first map has (`addresses_exact`).
-/

namespace Gmaker.Net.Kcp

open Gmaker.Lib

/-! ## The server -/

/-- `sockaddr_in`, the port as `ntohs` has it. -/
structure SockAddr where
  ip : UInt32
  port : UInt16
deriving DecidableEq

/-- `MakeAddrKey`. -/
def makeAddrKey (addr : SockAddr) : UInt64 := (addr.ip.toUInt64 <<< 16) ||| addr.port.toUInt64

/-- `ikcp_getconv`. -/
def getconv (data : Bytes) : UInt32 := UInt32.ofNat (ofBE (data.take 4).reverse)

/-- How far the close of a connection is. -/
inductive Stage where
  | open_
  /-- `on_close_` comes to `conns_by_conv_` next -/
  | closing
  /-- it comes to `conv_by_addr_` next -/
  | erased
  | closed
deriving DecidableEq

structure Conn where
  addr : SockAddr
  stage : Stage := .open_
deriving DecidableEq

structure KCPServer where
  convCounter : UInt32 := 1
  /-- The connections that were made, by their numbers. -/
  conns : UInt32 → Option Conn := fun _ => none
  /-- The numbers in `conns_by_conv_`. -/
  connsByConv : Finset UInt32 := ∅
  convByAddr : UInt64 → Option UInt32 := fun _ => none

namespace KCPServer

/-- `OnUDPRecv`, of a handshake. -/
def onHandshake (maxConn : ℤ) (s : KCPServer) (addr : SockAddr) : KCPServer :=
  if (s.convByAddr (makeAddrKey addr)).isSome then s
  else if maxConn ≤ s.connsByConv.card then s
  else
    { s with
      convCounter := s.convCounter + 1
      conns := Function.update s.conns s.convCounter (some { addr })
      convByAddr := Function.update s.convByAddr (makeAddrKey addr) (some s.convCounter)
      connsByConv := insert s.convCounter s.connsByConv }

/-- `OnUDPRecv`, and the number of the connection that is given the datagram. -/
def onUDPRecv (maxConn : ℤ) (s : KCPServer) (addr : SockAddr) (data : Bytes) :
    KCPServer × Option UInt32 :=
  if data.length < 4 then (s, none)
  else
    let conv := getconv data
    if conv = 0 then
      (if data.length = 17 ∧ data.head? = some 0 then s.onHandshake maxConn addr else s, none)
    else (s, if conv ∈ s.connsByConv then some conv else none)

/-- The closes go on. -/
def setStages (s : KCPServer) (f : UInt32 → Stage → Stage) : KCPServer :=
  { s with conns := fun v => (s.conns v).map fun c => { c with stage := f v c.stage } }

def setStage (s : KCPServer) (conv : UInt32) (stage : Stage) : KCPServer :=
  s.setStages fun v old => if v = conv then stage else old

/-- The first critical section of `on_close_`. -/
def eraseConv (s : KCPServer) (conv : UInt32) : KCPServer :=
  { s with connsByConv := s.connsByConv.erase conv }

/-- The second one. -/
def eraseAddr (s : KCPServer) (addr : SockAddr) : KCPServer :=
  { s with convByAddr := Function.update s.convByAddr (makeAddrKey addr) none }

/-- `IsDead`; from the `idle` ones nothing has come for too long. -/
def isDead (s : KCPServer) (idle : Finset UInt32) (conv : UInt32) : Bool :=
  (s.conns conv).any fun c => c.stage ≠ .open_ || conv ∈ idle

/-- The address has one of these connections. -/
def HasOf (s : KCPServer) (convs : Finset UInt32) (key : UInt64) : Prop :=
  ∃ v ∈ convs, (s.conns v).map (fun c => makeAddrKey c.addr) = some key

instance (s : KCPServer) (convs : Finset UInt32) (key : UInt64) : Decidable (s.HasOf convs key) :=
  inferInstanceAs (Decidable (∃ v ∈ convs, _))

/-- `CleanupDeadConnections`. When another thread closes a dead one too, it comes to the same
whether it does so before or meanwhile. -/
def cleanupDeadConnections (s : KCPServer) (idle : Finset UInt32) : KCPServer :=
  let dead := s.connsByConv.filter fun v => s.isDead idle v
  { s.setStages fun v old => if v ∈ dead ∧ old = .open_ then .closed else old with
    convByAddr := fun key => if s.HasOf dead key then none else s.convByAddr key
    connsByConv := s.connsByConv \ dead }

/-! ## What can happen -/

inductive ServerEvent where
  | recv (addr : SockAddr) (data : Bytes)
  /-- a callback on the loop's thread closes the connection -/
  | closeOnLoop (conv : UInt32)
  /-- another thread does -/
  | close (conv : UInt32)
  | eraseConv (conv : UInt32)
  | eraseAddr (conv : UInt32)
  | cleanup (idle : Finset UInt32)
deriving DecidableEq

/-- The connection with its close as far as that. -/
def at_ (s : KCPServer) (conv : UInt32) (stage : Stage) : Option Conn :=
  (s.conns conv).filter fun c => c.stage = stage

def next (maxConn : ℤ) (s : KCPServer) : ServerEvent → Option KCPServer
  | .recv addr data =>
    -- with the last number the counter would come round
    if s.convCounter.toNat < 2 ^ 32 - 1 then some (s.onUDPRecv maxConn addr data).1 else none
  | .closeOnLoop conv => (s.at_ conv .open_).map fun c =>
    ((s.setStage conv .closed).eraseConv conv).eraseAddr c.addr
  | .close conv => (s.at_ conv .open_).map fun _ => s.setStage conv .closing
  | .eraseConv conv => (s.at_ conv .closing).map fun _ => (s.setStage conv .erased).eraseConv conv
  | .eraseAddr conv => (s.at_ conv .erased).map fun c =>
    (s.setStage conv .closed).eraseAddr c.addr
  | .cleanup idle => some (s.cleanupDeadConnections idle)

/-! ## The maps -/

/-- What holds of the maps whoever closes connections and when. -/
structure Inv (maxConn : ℤ) (s : KCPServer) : Prop where
  fresh : ∀ v c, s.conns v = some c → v < s.convCounter
  /-- a connection is in the first map until `on_close_` takes it out, if that is called at all -/
  open_ : ∀ v c, s.conns v = some c → c.stage = .open_ → v ∈ s.connsByConv
  listed : ∀ v ∈ s.connsByConv, ∃ c, s.conns v = some c ∧ (c.stage = .open_ ∨ c.stage = .closing)
  /-- an address has a connection of its own, until the close of that is over -/
  named : ∀ key v, s.convByAddr key = some v →
    ∃ c, s.conns v = some c ∧ makeAddrKey c.addr = key ∧ c.stage ≠ .closed
  size : (s.connsByConv.card : ℤ) ≤ max maxConn 0

/-- Every connection of the first map is the one of its address. -/
def Addressed (s : KCPServer) : Prop :=
  ∀ v ∈ s.connsByConv, ∀ c, s.conns v = some c → s.convByAddr (makeAddrKey c.addr) = some v

/-- `on_close_` takes away no address that a connection of the first map has. -/
def Apart (s : KCPServer) : ServerEvent → Prop
  | .eraseAddr conv =>
    ∀ c, s.at_ conv .erased = some c →
      ∀ w ∈ s.connsByConv, s.convByAddr (makeAddrKey c.addr) ≠ some w
  | _ => True

section Steps

variable {maxConn : ℤ} {s t : KCPServer} {v : UInt32} {c : Conn} {stage : Stage}

theorem at_eq_some : s.at_ v stage = some c ↔ s.conns v = some c ∧ c.stage = stage := by
  rw [at_, Option.filter_eq_some_iff, decide_eq_true_iff]

theorem conns_setStages {f : UInt32 → Stage → Stage} (hc : (s.setStages f).conns v = some c) :
    ∃ d, s.conns v = some d ∧ { d with stage := f v d.stage } = c :=
  Option.map_eq_some_iff.mp hc

/-- Closes go on, and the maps lose what is closed. -/
structure Closes (s t : KCPServer) (f : UInt32 → Stage → Stage) : Prop where
  counter : t.convCounter = s.convCounter
  conns : t.conns = (s.setStages f).conns
  subset : t.connsByConv ⊆ s.connsByConv
  before : ∀ key v, t.convByAddr key = some v → s.convByAddr key = some v
  /-- who is still open is still in the first map -/
  open_ : ∀ v c, s.conns v = some c → f v c.stage = .open_ →
    c.stage = .open_ ∧ (v ∈ s.connsByConv → v ∈ t.connsByConv)
  listed : ∀ v ∈ t.connsByConv, ∀ c, s.conns v = some c →
    f v c.stage = c.stage ∨ f v c.stage = .closing
  named : ∀ v c, s.conns v = some c → t.convByAddr (makeAddrKey c.addr) = some v →
    f v c.stage = .closed → c.stage = .closed

namespace Closes

variable {f : UInt32 → Stage → Stage}

theorem conns_eq (h : Closes s t f) (hc : s.conns v = some c) :
    t.conns v = some { c with stage := f v c.stage } := by
  rw [h.conns]
  exact Option.map_eq_some_iff.mpr ⟨c, hc, rfl⟩

theorem inv (h : Closes s t f) (hs : s.Inv maxConn) : t.Inv maxConn where
  fresh v c hc := by
    obtain ⟨d, hd, -⟩ := conns_setStages (h.conns ▸ hc)
    exact h.counter ▸ hs.fresh v d hd
  open_ v c hc hopen := by
    obtain ⟨d, hd, rfl⟩ := conns_setStages (h.conns ▸ hc)
    obtain ⟨hold, hkeep⟩ := h.open_ v d hd hopen
    exact hkeep (hs.open_ v d hd hold)
  listed v hv := by
    obtain ⟨c, hc, hstage⟩ := hs.listed v (h.subset hv)
    refine ⟨_, h.conns_eq hc, ?_⟩
    rcases h.listed v hv c hc with heq | heq
    · rwa [heq]
    · exact .inr heq
  named key v hv := by
    obtain ⟨c, hc, rfl, hstage⟩ := hs.named key v (h.before key v hv)
    exact ⟨_, h.conns_eq hc, rfl, fun hclosed => hstage (h.named v c hc hv hclosed)⟩
  size := by
    have hcard := Finset.card_le_card h.subset
    have hsize := hs.size
    omega

theorem addressed (h : Closes s t f) (hs : s.Addressed)
    (hkeep : ∀ v ∈ t.connsByConv, ∀ key, s.convByAddr key = some v → t.convByAddr key = some v) :
    t.Addressed := by
  intro v hv c hc
  obtain ⟨d, hd, rfl⟩ := conns_setStages (h.conns ▸ hc)
  exact hkeep v hv _ (hs v (h.subset hv) d hd)

end Closes

theorem Inv.ne_counter (h : s.Inv maxConn) (hc : s.conns v = some c) : v ≠ s.convCounter := by
  rintro rfl
  exact absurd (h.fresh _ c hc) (UInt32.lt_irrefl _)

theorem Inv.onHandshake (h : s.Inv maxConn) (addr : SockAddr)
    (hcounter : s.convCounter.toNat < 2 ^ 32 - 1) : (s.onHandshake maxConn addr).Inv maxConn := by
  unfold KCPServer.onHandshake
  split_ifs with hnamed hfull
  · exact h
  · exact h
  have hlt : s.convCounter < s.convCounter + 1 := by
    rw [UInt32.lt_iff_toNat_lt, UInt32.toNat_add]
    change _ < (_ + 1) % 2 ^ 32
    omega
  have hold : ∀ {v c}, s.conns v = some c →
      Function.update s.conns s.convCounter (some { addr }) v = some c :=
    fun hc => (Function.update_of_ne (h.ne_counter hc) ..).trans hc
  constructor <;> dsimp only
  · intro v c hc
    rw [Function.update_apply] at hc
    split_ifs at hc with heq
    · exact heq ▸ hlt
    · exact UInt32.lt_trans (h.fresh v c hc) hlt
  · intro v c hc hopen
    rw [Function.update_apply] at hc
    split_ifs at hc with heq
    · exact heq ▸ Finset.mem_insert_self _ _
    · exact Finset.mem_insert_of_mem (h.open_ v c hc hopen)
  · intro v hv
    rcases Finset.mem_insert.mp hv with rfl | hv
    · exact ⟨_, Function.update_self .., .inl rfl⟩
    · obtain ⟨c, hc, hstage⟩ := h.listed v hv
      exact ⟨c, hold hc, hstage⟩
  · intro key v hkey
    rw [Function.update_apply] at hkey
    split_ifs at hkey with heq
    · cases hkey
      exact ⟨_, Function.update_self .., heq.symm, nofun⟩
    · obtain ⟨c, hc, hrest⟩ := h.named key v hkey
      exact ⟨c, hold hc, hrest⟩
  · have hcard := Finset.card_insert_le s.convCounter s.connsByConv
    omega

theorem Addressed.onHandshake (hs : s.Addressed) (h : s.Inv maxConn) (addr : SockAddr) :
    (s.onHandshake maxConn addr).Addressed := by
  unfold KCPServer.onHandshake
  split_ifs with hnamed hfull
  · exact hs
  · exact hs
  intro v hv c hc
  dsimp only at hc ⊢
  rcases Finset.mem_insert.mp hv with rfl | hv
  · rw [Function.update_self] at hc
    cases hc
    exact Function.update_self ..
  · obtain ⟨d, hd, -⟩ := h.listed v hv
    rw [Function.update_of_ne (h.ne_counter hd)] at hc
    have hkey := hs v hv c hc
    refine (Function.update_of_ne (fun heq => hnamed ?_) ..).trans hkey
    rw [← heq, hkey, Option.isSome_some]

theorem before_eraseAddr {key key' : UInt64}
    (h : Function.update s.convByAddr key' none key = some v) : s.convByAddr key = some v := by
  rw [Function.update_apply] at h
  split_ifs at h
  exact h

/-- The close of one connection goes on. -/
theorem closes_one (hc : s.conns v = some c) (hbegun : stage ≠ .open_)
    (hcounter : t.convCounter = s.convCounter) (hconns : t.conns = (s.setStage v stage).conns)
    (hmap : t.connsByConv = s.connsByConv ∧ stage = .closing ∨
      t.connsByConv = s.connsByConv.erase v)
    (haddr : t.convByAddr = s.convByAddr ∧ stage ≠ .closed ∨
      t.convByAddr = Function.update s.convByAddr (makeAddrKey c.addr) none) :
    Closes s t fun w old => if w = v then stage else old where
  counter := hcounter
  conns := hconns
  subset := by
    rcases hmap with ⟨heq, -⟩ | heq
    · exact heq.subset
    · exact heq ▸ Finset.erase_subset v s.connsByConv
  before key w hw := by
    rcases haddr with ⟨heq, -⟩ | heq
    · rwa [heq] at hw
    · exact before_eraseAddr (heq ▸ hw)
  open_ w d hd hopen := by
    split_ifs at hopen with hv
    · exact absurd hopen hbegun
    · refine ⟨hopen, fun hw => ?_⟩
      rcases hmap with ⟨heq, -⟩ | heq
      · exact heq ▸ hw
      · exact heq ▸ Finset.mem_erase.mpr ⟨hv, hw⟩
  listed w hw d hd := by
    split_ifs with hv
    · rcases hmap with ⟨-, hstage⟩ | heq
      · exact .inr hstage
      · exact absurd hv (Finset.ne_of_mem_erase (heq ▸ hw))
    · exact .inl rfl
  named w d hd hw hclosed := by
    split_ifs at hclosed with hv
    · subst hv
      cases hd.symm.trans hc
      rw [haddr.resolve_left fun hkeep => hkeep.2 hclosed, Function.update_self] at hw
      cases hw
    · exact hclosed

/-- A connection that is out of the first map stays out. -/
theorem notMem_of_erased (h : s.Inv maxConn) (hc : s.at_ v .erased = some c) :
    v ∉ s.connsByConv := by
  rcases at_eq_some.mp hc with ⟨hmade, herased⟩
  intro hv
  obtain ⟨d, hd, hstage⟩ := h.listed v hv
  cases hd.symm.trans hmade
  rw [herased] at hstage
  exact hstage.elim nofun nofun

theorem closes_eraseAddr (h : s.Inv maxConn) (hc : s.at_ v .erased = some c) :
    Closes s ((s.setStage v .closed).eraseAddr c.addr) fun w old =>
      if w = v then .closed else old :=
  closes_one (at_eq_some.mp hc).1 nofun rfl rfl
    (.inr (Finset.erase_eq_of_notMem (notMem_of_erased h hc)).symm) (.inr rfl)

theorem addressed_eraseAddr_iff (h : s.Inv maxConn) (hs : s.Addressed)
    (hc : s.at_ v .erased = some c) :
    ((s.setStage v .closed).eraseAddr c.addr).Addressed ↔ s.Apart (.eraseAddr v) := by
  constructor
  · intro ht d hd w hw hkey
    cases hc.symm.trans hd
    -- `w` has lost its address
    obtain ⟨e, he, hsame, -⟩ := h.named _ w hkey
    have hnone := ht w hw _ ((closes_eraseAddr h hc).conns_eq he)
    dsimp only at hnone
    rw [hsame] at hnone
    cases (Function.update_self ..).symm.trans hnone
  · intro hapart
    refine (closes_eraseAddr h hc).addressed hs fun w hw key hkey =>
      (Function.update_of_ne ?_ ..).trans hkey
    rintro rfl
    exact hapart c hc w hw hkey

theorem closes_cleanup (s : KCPServer) (idle : Finset UInt32) :
    Closes s (s.cleanupDeadConnections idle) fun w old =>
      if w ∈ s.connsByConv.filter (fun v => s.isDead idle v) ∧ old = .open_ then .closed
      else old where
  counter := rfl
  conns := rfl
  subset := Finset.sdiff_subset
  before key w hw := by
    dsimp only [cleanupDeadConnections] at hw
    split_ifs at hw
    exact hw
  open_ w d hd hopen := by
    split_ifs at hopen with hdead
    exact ⟨hopen, fun hw => Finset.mem_sdiff.mpr ⟨hw, fun hfilter => hdead ⟨hfilter, hopen⟩⟩⟩
  listed w hw d hd := .inl (if_neg fun hdead => (Finset.mem_sdiff.mp hw).2 hdead.1)
  named w d hd hw hclosed := by
    dsimp only [cleanupDeadConnections] at hw
    split_ifs at hclosed hw with hdead hhas
    · exact absurd ⟨w, hdead.1, by rw [hd, Option.map_some]⟩ hhas
    · exact hclosed

theorem Addressed.cleanup (hs : s.Addressed) (idle : Finset UInt32) :
    (s.cleanupDeadConnections idle).Addressed := by
  refine (closes_cleanup s idle).addressed hs fun w hw key hkey => ?_
  dsimp only [cleanupDeadConnections]
  rw [if_neg]
  · exact hkey
  · -- a dead one with the address would be `w`
    rintro ⟨v, hv, hsame⟩
    obtain ⟨d, hd, rfl⟩ := Option.map_eq_some_iff.mp hsame
    cases (hs v (Finset.mem_filter.mp hv).1 d hd).symm.trans hkey
    exact (Finset.mem_sdiff.mp hw).2 hv

/-- Only an address that is taken away on another thread can be a wrong one. -/
theorem next_spec (h : s.Inv maxConn) {e : ServerEvent} (hstep : next maxConn s e = some t) :
    t.Inv maxConn ∧ (s.Addressed → (t.Addressed ↔ s.Apart e)) := by
  cases e with
  | recv addr data =>
    simp only [next] at hstep
    split_ifs at hstep with hcounter
    cases hstep
    unfold onUDPRecv
    dsimp only
    split_ifs
    all_goals
      first
      | exact ⟨h.onHandshake addr hcounter, fun hs => iff_of_true (hs.onHandshake h addr) trivial⟩
      | exact ⟨h, fun hs => iff_of_true hs trivial⟩
  | closeOnLoop conv =>
    obtain ⟨c, hc, rfl⟩ := Option.map_eq_some_iff.mp hstep
    rcases at_eq_some.mp hc with ⟨hmade, hopen⟩
    have hcloses : Closes s (((s.setStage conv .closed).eraseConv conv).eraseAddr c.addr)
        fun w old => if w = conv then .closed else old :=
      closes_one hmade nofun rfl rfl (.inr rfl) (.inr rfl)
    refine ⟨hcloses.inv h, fun hs => iff_of_true ?_ trivial⟩
    refine hcloses.addressed hs fun w hw key hkey => (Function.update_of_ne ?_ ..).trans hkey
    rintro rfl
    cases (hs conv (h.open_ conv c hmade hopen) c hmade).symm.trans hkey
    exact Finset.notMem_erase conv _ hw
  | close conv =>
    obtain ⟨c, hc, rfl⟩ := Option.map_eq_some_iff.mp hstep
    have hcloses : Closes s (s.setStage conv .closing) fun w old =>
        if w = conv then .closing else old :=
      closes_one (at_eq_some.mp hc).1 nofun rfl rfl (.inl ⟨rfl, rfl⟩) (.inl ⟨rfl, nofun⟩)
    exact ⟨hcloses.inv h, fun hs => iff_of_true (hcloses.addressed hs fun _ _ _ => id) trivial⟩
  | eraseConv conv =>
    obtain ⟨c, hc, rfl⟩ := Option.map_eq_some_iff.mp hstep
    have hcloses : Closes s ((s.setStage conv .erased).eraseConv conv) fun w old =>
        if w = conv then .erased else old :=
      closes_one (at_eq_some.mp hc).1 nofun rfl rfl (.inr rfl) (.inl ⟨rfl, nofun⟩)
    exact ⟨hcloses.inv h, fun hs => iff_of_true (hcloses.addressed hs fun _ _ _ => id) trivial⟩
  | eraseAddr conv =>
    obtain ⟨c, hc, rfl⟩ := Option.map_eq_some_iff.mp hstep
    exact ⟨(closes_eraseAddr h hc).inv h, fun hs => addressed_eraseAddr_iff h hs hc⟩
  | cleanup idle =>
    cases hstep
    exact ⟨(closes_cleanup s idle).inv h, fun hs => iff_of_true (hs.cleanup idle) trivial⟩

/-! ## Every run -/

theorem inv_empty (maxConn : ℤ) : Inv maxConn {} :=
  ⟨nofun, nofun, nofun, nofun, le_max_right maxConn 0⟩

theorem addressed_empty : Addressed {} := fun v hv => absurd hv (Finset.notMem_empty v)

/-- Connections of the first map have numbers of their own, no more than are allowed, and
addresses name connections that are theirs and whose close is not over. -/
theorem maps_kept {es : List ServerEvent} (hrun : run (next maxConn) {} es = some s) :
    s.Inv maxConn :=
  run_invariant_all (fun _ _ _ h hstep => (next_spec h hstep).1) (inv_empty maxConn) hrun

/-- **Addresses.** In every state of a run the connections of the first map are those of their
addresses, if and only if `on_close_` never takes away an address that one of them has. -/
theorem addresses_exact (maxConn : ℤ) (es : List ServerEvent) :
    RunOk (next maxConn) Apart {} es ↔
      ∀ front s, front <+: es → run (next maxConn) {} front = some s → s.Addressed := by
  refine runOk_iff_of_implies (I := fun s => Inv maxConn s ∧ Addressed s) ?_ (fun _ h => h.2) ?_ ?_
    ⟨inv_empty maxConn, addressed_empty⟩
  · intro s e hnone
    cases e with
    | eraseAddr conv =>
      intro c hc
      simp only [next, hc, Option.map_some, reduceCtorEq] at hnone
    | _ => trivial
  · intro s e t h hapart hstep
    exact ⟨(next_spec h.1 hstep).1, ((next_spec h.1 hstep).2 h.2).mpr hapart⟩
  · intro s e t h hstep ht
    exact ((next_spec h.1 hstep).2 h.2).mp ht

/-- As long as only the loop closes connections, no two of them have the same address. -/
theorem one_per_address {es : List ServerEvent} (hloop : ∀ e ∈ es, ∀ conv, e ≠ .eraseAddr conv)
    (hrun : run (next maxConn) {} es = some s) {w : UInt32} {d : Conn} (hv : v ∈ s.connsByConv)
    (hw : w ∈ s.connsByConv) (hc : s.conns v = some c) (hd : s.conns w = some d)
    (hsame : c.addr = d.addr) : v = w := by
  have hstep : ∀ s e t, (∀ conv, e ≠ ServerEvent.eraseAddr conv) → Inv maxConn s ∧ Addressed s →
      next maxConn s e = some t → Inv maxConn t ∧ Addressed t := by
    intro s e t hne h hstep
    refine ⟨(next_spec h.1 hstep).1, ((next_spec h.1 hstep).2 h.2).mpr ?_⟩
    cases e with
    | eraseAddr conv => exact absurd rfl (hne conv)
    | _ => trivial
  have hend := run_invariant hstep ⟨inv_empty maxConn, addressed_empty⟩ (runOk_of_forall hloop) hrun
  have hkey := hend.2 v hv c hc
  rw [hsame, hend.2 w hw d hd] at hkey
  cases hkey
  rfl

end Steps

/-- A handshake from one address. -/
def knock : ServerEvent := .recv ⟨1, 1⟩ (List.replicate 17 0)

/-- The address knocks twice, and its connection is closed. -/
def knocks : List ServerEvent := [knock, knock, .closeOnLoop 1, knock]

theorem maps_kept_knocks : ∃ s, run (next 10) {} knocks = some s ∧ s.Inv 10 :=
  ⟨_, rfl, @maps_kept 10 _ knocks rfl⟩

theorem one_per_address_knocks : ∃ s, run (next 10) {} knocks = some s ∧
    ∀ v ∈ s.connsByConv, ∀ w ∈ s.connsByConv, ∀ c d, s.conns v = some c → s.conns w = some d →
      c.addr = d.addr → v = w := by
  have hloop : ∀ e ∈ knocks, ∀ conv, e ≠ .eraseAddr conv := by
    rintro e he conv rfl
    simp [knocks, knock] at he
  exact ⟨_, rfl, fun v hv w hw c d => @one_per_address 10 _ v c knocks hloop rfl w d hv hw⟩

/-- Another thread closes the connection and is late with `on_close_`: the second connection of
the address loses it, and there is a third. -/
example : (run (next 10) {} [knock, .close 1, .cleanup ∅, knock, .eraseConv 1, .eraseAddr 1,
    knock]).map (fun s => (s.connsByConv, (s.conns 2).map Conn.addr, (s.conns 3).map Conn.addr)) =
      some ({2, 3}, some ⟨1, 1⟩, some ⟨1, 1⟩) := by
  decide

end KCPServer

end Gmaker.Net.Kcp
