import Gmaker.Lib.Fold
import Gmaker.Lib.Machine
import Gmaker.Realtime.Aoi
import Gmaker.Realtime.Geometry

/-!
# Gmaker.Realtime.AoiRoom — who sees whom in a room

In a tick `Room` files its players by position and broadcasts a snapshot for each of them. The
players near one player are what the snapshot shows, and also whom it is sent to: a player gets the
snapshot of everybody who is near, not the one of its own place. Everybody gets its own view and no
other if and only if no two players are near each other (`ownView_iff`).
-/

namespace Gmaker.Realtime.Aoi

open Gmaker.Lib GridSpatialIndex

/-! ## The room -/

/-- `RoomConfig`, without the rate of the ticks. -/
structure RoomConfig where
  roomId : UInt32 := 0
  maxPlayers : UInt32 := 20
  mapSizeX : ℚ := 1000
  mapSizeZ : ℚ := 1000
  enableAoi : Bool := true
  aoiRadius : ℚ := 200

structure PlayerState where
  playerId : UInt64
  pos : Vec3 ℚ
  vel : Vec3 ℚ := ⟨0, 0, 0⟩
  yaw : ℚ := 0
  hp : UInt32 := 100
  animState : UInt32 := 0
  deriving DecidableEq

structure RoomSnapshot where
  roomId : UInt32
  frameSeq : UInt32
  timestampMs : UInt64
  players : List PlayerState := []
  rawPayload : List UInt8 := []
  deriving DecidableEq

/-- What the callback is given: a snapshot, and the connections it goes to. -/
abbrev Broadcast := RoomSnapshot × List UInt64

/-- `Room`; `broadcasts` says whether there is a `broadcast_cb_`. -/
structure Room where
  cfg : RoomConfig
  broadcasts : Bool
  frameSeq : UInt32 := 0
  lastTickMs : UInt64 := 0
  players : Assoc UInt64 PlayerState := []
  playerToConn : Assoc UInt64 UInt64 := []
  spatial : Option GridSpatialIndex := none

/-- In which order the hash maps are gone through. -/
structure Orders where
  players : Order (UInt64 × PlayerState)
  conns : Order (UInt64 × UInt64)

inductive Message where
  | playerEnter (playerId connId : UInt64) (spawnPos : Vec3 ℚ)
  | playerLeave (playerId : UInt64)
  | playerMove (playerId : UInt64) (targetPos : Vec3 ℚ) (targetYaw : ℚ)
  | playerAction (playerId : UInt64) (actionId : UInt32)
  | roomBroadcast (payload : List UInt8) (orders : Orders)
  | roomTick (nowMs : UInt64) (orders : Orders)

namespace Room

/-- The constructor, and `SetBroadcastCallback`. -/
def new (cfg : RoomConfig) (broadcasts : Bool) : Option Room :=
  if cfg.enableAoi then
    (GridSpatialIndex.new cfg.mapSizeX cfg.mapSizeZ cfg.aoiRadius).map fun g =>
      { cfg := cfg, broadcasts := broadcasts, spatial := some g }
  else some { cfg := cfg, broadcasts := broadcasts }

/-- `IsFull`. -/
def isFull (r : Room) : Prop := r.cfg.maxPlayers.toNat ≤ r.players.length

instance (r : Room) : Decidable r.isFull := inferInstanceAs (Decidable (_ ≤ _))

/-- `OnPlayerEnter`. -/
def onPlayerEnter (r : Room) (playerId connId : UInt64) (spawnPos : Vec3 ℚ) : Room :=
  if r.isFull then r
  else
    { r with
      players := r.players.assign playerId { playerId := playerId, pos := spawnPos }
      playerToConn := r.playerToConn.assign playerId connId }

/-- `OnPlayerLeave`. -/
def onPlayerLeave (r : Room) (playerId : UInt64) : Room :=
  { r with players := r.players.erase playerId, playerToConn := r.playerToConn.erase playerId }

/-- `OnPlayerMove`. -/
def onPlayerMove (r : Room) (playerId : UInt64) (targetPos : Vec3 ℚ) (targetYaw : ℚ) : Room :=
  { r with players := r.players.modify playerId fun state =>
      { state with pos := targetPos, yaw := targetYaw } }

/-- `OnPlayerAction`. -/
def onPlayerAction (r : Room) (playerId : UInt64) (actionId : UInt32) : Room :=
  { r with players := r.players.modify playerId fun state => { state with animState := actionId } }

/-- What every snapshot says of the room. -/
def snapshot (r : Room) : RoomSnapshot :=
  { roomId := r.cfg.roomId, frameSeq := r.frameSeq, timestampMs := r.lastTickMs }

/-- `OnRoomBroadcast`. -/
def onRoomBroadcast (o : Orders) (r : Room) (payload : List UInt8) : List Broadcast :=
  if r.broadcasts = false ∨ r.playerToConn = [] then []
  else [({ r.snapshot with rawPayload := payload }, (o.conns.arrange r.playerToConn).map Prod.snd)]

/-- The players as the loops of a tick meet them. -/
def arranged (o : Orders) (r : Room) : Assoc UInt64 PlayerState := o.players.arrange r.players

/-- Where a player stands on the map. -/
def ground (state : PlayerState) : ℚ × ℚ := (state.pos.x, state.pos.z)

/-- The part of `Tick` that files the players. -/
def reindex (o : Orders) (r : Room) : Option Room :=
  match r.spatial with
  | none => some r
  | some g =>
    (g.clear.insertAll ((r.arranged o).map fun p => (p.1, ground p.2))).map fun g' =>
      { r with spatial := some g' }

/-- What is broadcast for one player. -/
def view (r : Room) (g : GridSpatialIndex) (state : PlayerState) : Option Broadcast :=
  (g.queryRange state.pos.x state.pos.z r.cfg.aoiRadius).map fun nearby =>
    let targetConns := nearby.filterMap fun targetPid => r.playerToConn.lookup targetPid
    let players := nearby.filterMap fun targetPid => r.players.lookup targetPid
    ({ r.snapshot with players := players }, targetConns)

/-- `BroadcastSnapshot`; the broadcasts of the players come in the order of the players. -/
def broadcastSnapshot (o : Orders) (r : Room) : Option (List Broadcast) :=
  if r.players = [] ∨ r.broadcasts = false then some []
  else if r.cfg.enableAoi = false then
    some [({ r.snapshot with players := (r.arranged o).map Prod.snd },
      (o.conns.arrange r.playerToConn).map Prod.snd)]
  else
    -- without an index a null pointer is followed
    r.spatial.bind fun g => (r.arranged o).mapM fun p => r.view g p.2

/-- `Tick`. -/
def tick (o : Orders) (r : Room) (nowMs : UInt64) : Option (Room × List Broadcast) :=
  if r.lastTickMs = 0 then some ({ r with lastTickMs := nowMs }, [])
  else
    (reindex o { r with lastTickMs := nowMs, frameSeq := r.frameSeq + 1 }).bind fun r =>
      (r.broadcastSnapshot o).map fun out => (r, out)

/-- `OnMessage`: the room, and what it broadcasts. -/
def onMessage (r : Room) : Message → Option (Room × List Broadcast)
  | .playerEnter playerId connId spawnPos => some (r.onPlayerEnter playerId connId spawnPos, [])
  | .playerLeave playerId => some (r.onPlayerLeave playerId, [])
  | .playerMove playerId targetPos targetYaw =>
    some (r.onPlayerMove playerId targetPos targetYaw, [])
  | .playerAction playerId actionId => some (r.onPlayerAction playerId actionId, [])
  | .roomBroadcast payload o => some (r, r.onRoomBroadcast o payload)
  | .roomTick nowMs o => r.tick o nowMs

def next (r : Room) (msg : Message) : Option Room := (r.onMessage msg).map Prod.fst

/-! ## What holds in every room -/

/-- Every player has a connection, and with AOI there is an index. -/
structure Valid (r : Room) : Prop where
  keyed : r.players.keys.Nodup
  conns : ∀ id state, r.players.lookup id = some state → ∃ conn, r.playerToConn.lookup id = some conn
  spatial : r.cfg.enableAoi = true → ∃ g, r.spatial = some g

variable {r r' : Room} {o : Orders} {msg : Message}

theorem valid_new {cfg : RoomConfig} {broadcasts : Bool} (h : new cfg broadcasts = some r) :
    r.Valid := by
  unfold new at h
  split_ifs at h with haoi
  · rcases Option.map_eq_some_iff.mp h with ⟨g, -, rfl⟩
    exact ⟨List.nodup_nil, by simp, fun _ => ⟨g, rfl⟩⟩
  · cases h
    exact ⟨List.nodup_nil, by simp, fun h => absurd h haoi⟩

theorem Valid.onPlayerEnter (h : r.Valid) (playerId connId : UInt64) (spawnPos : Vec3 ℚ) :
    (r.onPlayerEnter playerId connId spawnPos).Valid := by
  unfold Room.onPlayerEnter
  split_ifs
  · exact h
  · refine ⟨Assoc.nodup_assign h.keyed _ _, ?_, h.spatial⟩
    intro id state hstate
    rw [Assoc.lookup_assign] at hstate ⊢
    split_ifs at hstate ⊢
    · exact ⟨connId, rfl⟩
    · exact h.conns id state hstate

theorem Valid.onPlayerLeave (h : r.Valid) (playerId : UInt64) : (r.onPlayerLeave playerId).Valid := by
  refine ⟨Assoc.nodup_erase h.keyed _, ?_, h.spatial⟩
  intro id state hstate
  simp only [Room.onPlayerLeave, Assoc.lookup_erase] at hstate ⊢
  split_ifs at hstate ⊢
  exact h.conns id state hstate

/-- A change of a player's state is none of who is in the room. -/
theorem Valid.modify (h : r.Valid) (playerId : UInt64) (f : PlayerState → PlayerState) :
    Valid { r with players := r.players.modify playerId f } := by
  refine ⟨by rw [Assoc.keys_modify]; exact h.keyed, ?_, h.spatial⟩
  intro id state hstate
  have hmem : id ∈ r.players.keys := by
    rw [← Assoc.keys_modify r.players playerId f]
    exact Assoc.mem_keys_iff.mpr ⟨state, hstate⟩
  rcases Assoc.mem_keys_iff.mp hmem with ⟨old, hold⟩
  exact h.conns id old hold

theorem reindex_cases (h : r.reindex o = some r') :
    r' = { r with spatial := r'.spatial } ∧ (r.spatial.isSome → r'.spatial.isSome) := by
  unfold reindex at h
  cases hspatial : r.spatial with
  | none =>
    rw [hspatial] at h
    cases h
    exact ⟨rfl, fun hnone => by simp at hnone⟩
  | some g =>
    rw [hspatial] at h
    rcases Option.map_eq_some_iff.mp h with ⟨g', -, rfl⟩
    exact ⟨rfl, fun _ => rfl⟩

theorem Valid.roomTick (h : r.Valid) {nowMs : UInt64} {out : List Broadcast}
    (htick : r.tick o nowMs = some (r', out)) : r'.Valid := by
  unfold tick at htick
  split_ifs at htick
  · cases htick
    exact ⟨h.keyed, h.conns, h.spatial⟩
  · rcases Option.bind_eq_some_iff.mp htick with ⟨r₁, hreindex, hout⟩
    rcases Option.map_eq_some_iff.mp hout with ⟨out', -, heq⟩
    cases heq
    rcases reindex_cases hreindex with ⟨hsame, hspatial⟩
    rw [hsame]
    refine ⟨h.keyed, h.conns, ?_⟩
    intro haoi
    rcases h.spatial haoi with ⟨g, hg⟩
    exact Option.isSome_iff_exists.mp (hspatial (by rw [hg]; rfl))

/-- A message keeps this. -/
theorem Valid.next (h : r.Valid) (hnext : r.next msg = some r') : r'.Valid := by
  rcases Option.map_eq_some_iff.mp hnext with ⟨⟨r₁, out⟩, hmsg, rfl⟩
  cases msg with
  | playerEnter playerId connId spawnPos =>
    cases hmsg
    exact h.onPlayerEnter playerId connId spawnPos
  | playerLeave playerId =>
    cases hmsg
    exact h.onPlayerLeave playerId
  | playerMove playerId targetPos targetYaw =>
    cases hmsg
    exact h.modify playerId _
  | playerAction playerId actionId =>
    cases hmsg
    exact h.modify playerId _
  | roomBroadcast payload o =>
    cases hmsg
    exact h
  | roomTick nowMs o => exact h.roomTick hmsg

/-- So does every run. -/
theorem valid_of_run {cfg : RoomConfig} {broadcasts : Bool} {msgs : List Message}
    (hnew : new cfg broadcasts = some r) (hrun : run next r msgs = some r') : r'.Valid :=
  run_invariant_all (fun _ _ _ h hnext => h.next hnext) (valid_new hnew) hrun

/-! ## A tick -/

/-- The players with their places, in the order of the loops. -/
def places (o : Orders) (r : Room) : Assoc UInt64 (ℚ × ℚ) :=
  (r.arranged o).map fun p => (p.1, ground p.2)

theorem mem_arranged {p : UInt64 × PlayerState} : p ∈ r.arranged o ↔ p ∈ r.players :=
  o.players.mem_arrange

theorem nodup_arranged (h : r.Valid) (o : Orders) : (r.arranged o).keys.Nodup :=
  ((o.players.perm r.players).map Prod.fst).nodup_iff.mpr h.keyed

theorem keys_places (o : Orders) (r : Room) : (r.places o).keys = (r.arranged o).keys := by
  unfold places Assoc.keys
  rw [List.map_map]
  rfl

theorem nodup_places (h : r.Valid) (o : Orders) : (r.places o).keys.Nodup := by
  rw [keys_places]
  exact nodup_arranged h o

theorem lookup_places (h : r.Valid) {id : UInt64} {pos : ℚ × ℚ} :
    (r.places o).lookup id = some pos ↔
      ∃ state, r.players.lookup id = some state ∧ ground state = pos := by
  rw [← Assoc.mem_iff_lookup (nodup_places h o)]
  unfold places
  rw [List.mem_map]
  constructor
  · rintro ⟨p, hp, heq⟩
    cases heq
    exact ⟨p.2, (Assoc.mem_iff_lookup h.keyed).mp (mem_arranged.mp hp), rfl⟩
  · rintro ⟨state, hstate, rfl⟩
    exact ⟨(id, state), mem_arranged.mpr (Assoc.mem_of_lookup hstate), rfl⟩

/-- Whom a query at the place of a player returns. -/
def sight (r : Room) (g : GridSpatialIndex) (state : PlayerState) : List UInt64 :=
  (g.queryRange state.pos.x state.pos.z r.cfg.aoiRadius).getD []

/-- The snapshot that shows these players. -/
def viewOf (r : Room) (nearby : List UInt64) : RoomSnapshot :=
  { r.snapshot with players := nearby.filterMap fun targetPid => r.players.lookup targetPid }

/-- What is broadcast for one player, given whom the query returns. -/
def broadcastOf (r : Room) (nearby : List UInt64) : Broadcast :=
  (r.viewOf nearby, nearby.filterMap fun targetPid => r.playerToConn.lookup targetPid)

/-- The room after a tick, with its players filed. -/
def ticked (r : Room) (nowMs : UInt64) (g : GridSpatialIndex) : Room :=
  { r with lastTickMs := nowMs, frameSeq := r.frameSeq + 1, spatial := some g }

variable {g g' : GridSpatialIndex} {nowMs : UInt64} {out : List Broadcast}

/-- A tick files the players anew. -/
theorem reindex_ticked (hspatial : r.spatial = some g) :
    reindex o { r with lastTickMs := nowMs, frameSeq := r.frameSeq + 1 } =
      (g.clear.insertAll (r.places o)).map (r.ticked nowMs) := by
  unfold reindex
  rw [hspatial]
  rfl

/-- With players and a callback it broadcasts the view of each player. -/
theorem broadcastSnapshot_ticked (haoi : r.cfg.enableAoi = true) (hplayers : r.players ≠ [])
    (hbroadcasts : r.broadcasts = true) (g' : GridSpatialIndex) :
    (r.ticked nowMs g').broadcastSnapshot o =
      (r.arranged o).mapM fun p => (r.ticked nowMs g').view g' p.2 := by
  have hrest : ¬ ((r.ticked nowMs g').players = [] ∨ (r.ticked nowMs g').broadcasts = false) := by
    rintro (hnil | hnone)
    · exact hplayers hnil
    · exact Bool.noConfusion (hbroadcasts.symm.trans hnone)
  have haoi' : ¬ (r.ticked nowMs g').cfg.enableAoi = false := by
    intro hoff
    exact Bool.noConfusion (haoi.symm.trans hoff)
  unfold broadcastSnapshot
  rw [if_neg hrest, if_neg haoi']
  rfl

/-- The view of a player whose query has a result. -/
theorem view_ticked {state : PlayerState} (hqueries : ∃ nearby,
      g'.queryRange state.pos.x state.pos.z r.cfg.aoiRadius = some nearby) :
    (r.ticked nowMs g').view g' state =
      some (broadcastOf (r.ticked nowMs g') (r.sight g' state)) := by
  rcases hqueries with ⟨nearby, hnearby⟩
  have hcfg : (r.ticked nowMs g').cfg = r.cfg := rfl
  unfold view sight
  rw [hcfg, hnearby]
  rfl

theorem tick_eq_bind (haoi : r.cfg.enableAoi = true) (hticked : r.lastTickMs ≠ 0)
    (hplayers : r.players ≠ []) (hbroadcasts : r.broadcasts = true) (hspatial : r.spatial = some g) :
    r.tick o nowMs = (g.clear.insertAll (r.places o)).bind fun g' =>
      ((r.arranged o).mapM fun p => (r.ticked nowMs g').view g' p.2).map fun out =>
        (r.ticked nowMs g', out) := by
  rw [tick, if_neg hticked, reindex_ticked hspatial]
  cases g.clear.insertAll (r.places o) with
  | none => rfl
  | some g' =>
    rw [Option.map_some, Option.bind_some, Option.bind_some,
      broadcastSnapshot_ticked haoi hplayers hbroadcasts]

/-- A tick with players and a callback broadcasts once for each player, if it has a result. -/
theorem tick_eq_some (haoi : r.cfg.enableAoi = true) (hticked : r.lastTickMs ≠ 0)
    (hplayers : r.players ≠ []) (hbroadcasts : r.broadcasts = true) (hspatial : r.spatial = some g) :
    r.tick o nowMs = some (r', out) ↔
      ∃ g', g.clear.insertAll (r.places o) = some g' ∧ r' = r.ticked nowMs g' ∧
        (∀ p ∈ r.players, ∃ nearby,
          g'.queryRange p.2.pos.x p.2.pos.z r.cfg.aoiRadius = some nearby) ∧
        out = (r.arranged o).map fun p => broadcastOf r' (r.sight g' p.2) := by
  have hviews : ∀ g', (∀ p ∈ r.players, ∃ nearby,
      g'.queryRange p.2.pos.x p.2.pos.z r.cfg.aoiRadius = some nearby) →
        ((r.arranged o).mapM fun p => (r.ticked nowMs g').view g' p.2) =
          some ((r.arranged o).map fun p => broadcastOf (r.ticked nowMs g') (r.sight g' p.2)) := by
    intro g' hall
    apply mapM_eq_some
    intro p hp
    exact view_ticked (hall p (mem_arranged.mp hp))
  rw [tick_eq_bind haoi hticked hplayers hbroadcasts hspatial, Option.bind_eq_some_iff]
  constructor
  · rintro ⟨g', hinsert, hmap⟩
    rcases Option.map_eq_some_iff.mp hmap with ⟨out', hout, heq⟩
    cases heq
    have hall : ∀ p ∈ r.players, ∃ nearby,
        g'.queryRange p.2.pos.x p.2.pos.z r.cfg.aoiRadius = some nearby := by
      intro p hp
      rcases exists_of_mapM hout p (mem_arranged.mpr hp) with ⟨b, hb⟩
      rcases Option.map_eq_some_iff.mp hb with ⟨nearby, hnearby, -⟩
      exact ⟨nearby, hnearby⟩
    exact ⟨g', hinsert, rfl, hall, Option.some.inj (hout.symm.trans (hviews g' hall))⟩
  · rintro ⟨g', hinsert, rfl, hall, rfl⟩
    refine ⟨g', hinsert, ?_⟩
    rw [hviews g' hall]
    rfl

/-! ## What is sent -/

/-- What a connection is sent: the snapshots, with the players they are centred on. -/
def deliveries (conn : UInt64) (sent : List (UInt64 × Broadcast)) : List (UInt64 × RoomSnapshot) :=
  sent.flatMap fun s => (s.2.2.filter fun c => c = conn).map fun _ => (s.1, s.2.1)

/-- In a tick, the connection of each player is sent one snapshot, which is centred on the player
and shows whom a query at its place returns. Broadcasts come in the order of the players. -/
def OwnView (r : Room) (o : Orders) (nowMs : UInt64) : Prop :=
  ∃ r' out, r.tick o nowMs = some (r', out) ∧ ∀ id state, r.players.lookup id = some state →
    ∃ g conn nearby, r'.spatial = some g ∧ r.playerToConn.lookup id = some conn ∧
      g.queryRange state.pos.x state.pos.z r.cfg.aoiRadius = some nearby ∧
      deliveries conn ((r.arranged o).keys.zip out) = [(id, r'.viewOf nearby)]

/-- There is nobody, or there is a callback, all cells are numbers that fit, and every player is
on the grid within its own reach, has nobody else within it, and has a connection of its own. -/
def Apart (r : Room) : Prop :=
  r.players = [] ∨ r.broadcasts = true ∧ ∃ g, r.spatial = some g ∧
    (∀ p ∈ r.players, (g.index (ground p.2)).isSome) ∧
    ∀ p ∈ r.players, ∃ c, g.corners p.2.pos.x p.2.pos.z r.cfg.aoiRadius = some c ∧
      g.Reached c (ground p.2) ∧ ∀ q ∈ r.players, q.1 ≠ p.1 →
        ¬ g.Reached c (ground q.2) ∧ r.playerToConn.lookup q.1 ≠ r.playerToConn.lookup p.1

theorem zip_keys {β : Type} (l : Assoc UInt64 PlayerState) (f : UInt64 × PlayerState → β) :
    l.keys.zip (l.map f) = l.map fun p => (p.1, f p) := by
  induction l with
  | nil => rfl
  | cons p l ih =>
    rw [Assoc.keys_cons, List.map_cons, List.zip_cons_cons, ih]
    rfl

/-- A list of one element, told by what is in it. -/
theorem eq_singleton_of_mem {l : List UInt64} {id : UInt64} (hnodup : l.Nodup)
    (hmem : ∀ j, j ∈ l ↔ j = id) : l = [id] := by
  have hperm : l.Perm [id] :=
    (List.perm_ext_iff_of_nodup hnodup (List.nodup_singleton id)).mpr (by simpa using hmem)
  exact List.perm_singleton.mp hperm

/-- A snapshot goes to the connections of the players it shows. -/
theorem mem_deliveries {conn : UInt64} {s : UInt64 × RoomSnapshot}
    {sees : UInt64 × PlayerState → List UInt64} {l : Assoc UInt64 PlayerState} :
    s ∈ deliveries conn (l.map fun p => (p.1, r.broadcastOf (sees p))) ↔
      ∃ p ∈ l, s = (p.1, r.viewOf (sees p)) ∧
        ∃ target ∈ sees p, r.playerToConn.lookup target = some conn := by
  unfold deliveries
  simp only [List.mem_flatMap, List.mem_map, List.mem_filter, decide_eq_true_eq]
  constructor
  · rintro ⟨-, ⟨p, hp, rfl⟩, c, ⟨hc, rfl⟩, rfl⟩
    rcases List.mem_filterMap.mp hc with ⟨target, htarget, hlookup⟩
    exact ⟨p, hp, rfl, target, htarget, hlookup⟩
  · rintro ⟨p, hp, rfl, target, htarget, hlookup⟩
    exact ⟨_, ⟨p, hp, rfl⟩, conn, ⟨List.mem_filterMap.mpr ⟨target, htarget, hlookup⟩, rfl⟩, rfl⟩

/-- The connection of each player is sent one snapshot, which is centred on the player. -/
def OneEach (r : Room) (sees : UInt64 × PlayerState → List UInt64) (l : Assoc UInt64 PlayerState) :
    Prop :=
  ∀ p ∈ l, ∃ conn s, r.playerToConn.lookup p.1 = some conn ∧
    deliveries conn (l.map fun q => (q.1, r.broadcastOf (sees q))) = [(p.1, s)]

/-- Everybody sees itself alone, and has a connection of its own. -/
def Alone (r : Room) (sees : UInt64 × PlayerState → List UInt64) (l : Assoc UInt64 PlayerState) :
    Prop :=
  ∀ p ∈ l, (∀ j, j ∈ sees p ↔ j = p.1) ∧
    ∀ q ∈ l, q.1 ≠ p.1 → r.playerToConn.lookup q.1 ≠ r.playerToConn.lookup p.1

section Loop

variable {sees : UInt64 × PlayerState → List UInt64} {l : Assoc UInt64 PlayerState}

/-- Whoever is shown in a snapshot is sent it, so that it is the player in the middle. -/
theorem alone_of_oneEach (hkeyed : l.keys.Nodup)
    (hseen : ∀ p ∈ l, ∀ j ∈ sees p, ∃ q ∈ l, q.1 = j) (h : r.OneEach sees l) : r.Alone sees l := by
  -- whoever is shown is sent the snapshot, and the only one it is sent is its own
  have hcentre : ∀ p ∈ l, ∀ j ∈ sees p, j = p.1 := by
    intro p hp j hj
    rcases hseen p hp j hj with ⟨q, hq, rfl⟩
    rcases h q hq with ⟨conn, s, hconn, hsent⟩
    have hdelivered : (p.1, r.viewOf (sees p)) ∈
        deliveries conn (l.map fun q => (q.1, r.broadcastOf (sees q))) :=
      mem_deliveries.mpr ⟨p, hp, rfl, q.1, hj, hconn⟩
    rw [hsent, List.mem_singleton] at hdelivered
    exact (Prod.mk.inj hdelivered).1.symm
  -- a snapshot is sent to nobody who is not shown
  have hself : ∀ p ∈ l, p.1 ∈ sees p := by
    intro p hp
    rcases h p hp with ⟨conn, s, hconn, hsent⟩
    have hdelivered := List.mem_singleton_self (p.1, s)
    rw [← hsent, mem_deliveries] at hdelivered
    rcases hdelivered with ⟨q, hq, heq, target, htarget, -⟩
    have hkey : p.1 = q.1 := (Prod.mk.inj heq).1
    have hqp : q = p := List.inj_on_of_nodup_map hkeyed hq hp hkey.symm
    subst hqp
    rw [← hcentre q hq target htarget]
    exact htarget
  intro p hp
  constructor
  · intro j
    constructor
    · exact hcentre p hp j
    · rintro rfl
      exact hself p hp
  · intro q hq hne hsame
    rcases h p hp with ⟨conn, s, hconn, hsent⟩
    have hdelivered : (q.1, r.viewOf (sees q)) ∈
        deliveries conn (l.map fun q => (q.1, r.broadcastOf (sees q))) :=
      mem_deliveries.mpr ⟨q, hq, rfl, q.1, hself q hq, hsame.trans hconn⟩
    rw [hsent, List.mem_singleton] at hdelivered
    exact hne (Prod.mk.inj hdelivered).1

/-- What the broadcast for somebody who sees itself alone gives to a connection. -/
theorem sent_of_alone {p : UInt64 × PlayerState} {conn conn' : UInt64} (hsees : sees p = [p.1])
    (hconn : r.playerToConn.lookup p.1 = some conn') :
    ((r.broadcastOf (sees p)).2.filter fun c => c = conn) = if conn' = conn then [conn] else [] := by
  have htargets : (r.broadcastOf (sees p)).2 = [conn'] := by
    rw [hsees, broadcastOf, List.filterMap_cons, hconn]
    rfl
  rw [htargets]
  split_ifs with heq
  · rw [heq, List.filter_cons_of_pos (by simp), List.filter_nil]
  · rw [List.filter_cons_of_neg (by simpa using heq), List.filter_nil]

theorem deliveries_of_alone (hkeyed : l.keys.Nodup)
    (hconns : ∀ p ∈ l, ∃ conn, r.playerToConn.lookup p.1 = some conn)
    (hsees : ∀ p ∈ l, (sees p).Nodup) (h : r.Alone sees l) {p : UInt64 × PlayerState} (hp : p ∈ l)
    {conn : UInt64} (hconn : r.playerToConn.lookup p.1 = some conn) :
    deliveries conn (l.map fun q => (q.1, r.broadcastOf (sees q))) = [(p.1, r.viewOf (sees p))] := by
  have hsingle : ∀ q ∈ l, sees q = [q.1] := by
    intro q hq
    exact eq_singleton_of_mem (hsees q hq) (h q hq).1
  unfold deliveries
  rw [List.flatMap_map]
  refine flatMap_eq_singleton hkeyed.of_map hp ?_ ?_
  · rw [sent_of_alone (hsingle p hp) hconn, if_pos rfl]
    rfl
  · intro q hq hne
    rcases hconns q hq with ⟨conn', hconn'⟩
    have hkey : q.1 ≠ p.1 := by
      intro heq
      exact hne (List.inj_on_of_nodup_map hkeyed hq hp heq)
    have hother : conn' ≠ conn := by
      rintro rfl
      exact (h p hp).2 q hq hkey (hconn'.trans hconn.symm)
    rw [sent_of_alone (hsingle q hq) hconn', if_neg hother]
    rfl

end Loop

/-- What the query of a player returns in a tick. -/
theorem sight_spec (h : r.Valid) (hinsert : g.clear.insertAll (r.places o) = some g')
    {state : PlayerState} {nearby : List UInt64}
    (hquery : g'.queryRange state.pos.x state.pos.z r.cfg.aoiRadius = some nearby) :
    ∃ c, g.corners state.pos.x state.pos.z r.cfg.aoiRadius = some c ∧ nearby.Nodup ∧
      ∀ id, id ∈ nearby ↔ ∃ s, r.players.lookup id = some s ∧ g.Reached c (ground s) := by
  have hsame := (sameGrid_of_insertAll (sameGrid_clear g) hinsert).1
  rcases Option.map_eq_some_iff.mp hquery with ⟨c, hcorners, -⟩
  rw [hsame.corners] at hcorners
  rcases queryRange_spec (nodup_places h o) hinsert hcorners with ⟨nearby', hquery', hnodup, hmem⟩
  cases hquery.symm.trans hquery'
  refine ⟨c, hcorners, hnodup, ?_⟩
  intro id
  rw [hmem]
  constructor
  · rintro ⟨pos, hpos, hreached⟩
    rcases (lookup_places h).mp hpos with ⟨s, hs, rfl⟩
    exact ⟨s, hs, hreached⟩
  · rintro ⟨s, hs, hreached⟩
    exact ⟨ground s, (lookup_places h).mpr ⟨s, hs, rfl⟩, hreached⟩

/-! ## Who gets its own view -/

/-- Without a callback nothing is broadcast. -/
theorem out_of_broadcasts (hbroadcasts : r.broadcasts = false)
    (htick : r.tick o nowMs = some (r', out)) : out = [] := by
  unfold tick at htick
  split_ifs at htick
  · cases htick
    rfl
  · rcases Option.bind_eq_some_iff.mp htick with ⟨r₁, hreindex, hmap⟩
    rcases Option.map_eq_some_iff.mp hmap with ⟨out', hout, heq⟩
    cases heq
    have hnone : r'.broadcasts = false := by
      rw [(reindex_cases hreindex).1]
      exact hbroadcasts
    rw [broadcastSnapshot, if_pos (Or.inr hnone)] at hout
    exact (Option.some.inj hout).symm

/-- A tick of a room with nobody in it. -/
theorem tick_of_nobody (hticked : r.lastTickMs ≠ 0) (hplayers : r.players = [])
    (hspatial : r.spatial = some g) : ∃ r' out, r.tick o nowMs = some (r', out) := by
  have hplaces : r.places o = [] := by
    have hperm := o.players.perm r.players
    rw [hplayers] at hperm
    rw [places, arranged, hplayers, hperm.eq_nil, List.map_nil]
  have hreindex : reindex o { r with lastTickMs := nowMs, frameSeq := r.frameSeq + 1 } =
      some (r.ticked nowMs g.clear) := by
    rw [reindex_ticked hspatial, hplaces]
    rfl
  have hnobody : (r.ticked nowMs g.clear).players = [] := hplayers
  refine ⟨r.ticked nowMs g.clear, [], ?_⟩
  rw [tick, if_neg hticked, hreindex, Option.bind_some, broadcastSnapshot, if_pos (Or.inl hnobody)]
  rfl

/-- If everybody gets its own view alone, whom a query returns is the player it is made for. -/
theorem apart_of_ownView (h : r.Valid) (haoi : r.cfg.enableAoi = true) (hticked : r.lastTickMs ≠ 0)
    (hown : r.OwnView o nowMs) : r.Apart := by
  rcases hown with ⟨r', out, htick, hview⟩
  rcases eq_or_ne r.players [] with hnil | hplayers
  · exact Or.inl hnil
  have hlookup : ∀ p ∈ r.players, r.players.lookup p.1 = some p.2 := by
    intro p hp
    exact (Assoc.mem_iff_lookup h.keyed).mp hp
  -- without a callback nobody is sent anything
  have hbroadcasts : r.broadcasts = true := by
    by_contra hnone
    rcases List.exists_mem_of_ne_nil _ hplayers with ⟨p, hp⟩
    rcases hview p.1 p.2 (hlookup p hp) with ⟨_, _, _, -, -, -, hsent⟩
    rw [out_of_broadcasts (Bool.eq_false_of_not_eq_true hnone) htick, List.zip_nil_right] at hsent
    cases hsent
  rcases h.spatial haoi with ⟨g, hspatial⟩
  obtain ⟨g', hinsert, rfl, hqueries, rfl⟩ :=
    (tick_eq_some haoi hticked hplayers hbroadcasts hspatial).mp htick
  rw [zip_keys] at hview
  have hsight : ∀ p ∈ r.players, ∃ c, g.corners p.2.pos.x p.2.pos.z r.cfg.aoiRadius = some c ∧
      ∀ id, id ∈ r.sight g' p.2 ↔ ∃ s, r.players.lookup id = some s ∧ g.Reached c (ground s) := by
    intro p hp
    rcases hqueries p hp with ⟨nearby, hquery⟩
    rcases sight_spec h hinsert hquery with ⟨c, hcorners, -, hmem⟩
    rw [sight, hquery]
    exact ⟨c, hcorners, hmem⟩
  -- what the connections are sent says whom the queries returned
  have halone : (r.ticked nowMs g').Alone (fun p => r.sight g' p.2) (r.arranged o) := by
    refine alone_of_oneEach (nodup_arranged h o) ?_ ?_
    · intro p hp j hj
      rcases hsight p (mem_arranged.mp hp) with ⟨c, -, hmem⟩
      rcases (hmem j).mp hj with ⟨s, hs, -⟩
      exact ⟨(j, s), mem_arranged.mpr (Assoc.mem_of_lookup hs), rfl⟩
    · intro p hp
      obtain ⟨_, conn, nearby, -, hconn, -, hsent⟩ :=
        hview p.1 p.2 (hlookup p (mem_arranged.mp hp))
      exact ⟨conn, _, hconn, hsent⟩
  refine Or.inr ⟨hbroadcasts, g, hspatial, ?_, ?_⟩
  · intro p hp
    have hplace : (p.1, ground p.2) ∈ r.places o :=
      List.mem_map_of_mem (f := fun p => (p.1, ground p.2)) (mem_arranged.mpr hp)
    rcases (sameGrid_of_insertAll (sameGrid_clear g) hinsert).2 _ hplace with ⟨idx, hidx⟩
    have hindex : g.index (ground p.2) = some idx := hidx
    rw [hindex]
    rfl
  · intro p hp
    rcases hsight p hp with ⟨c, hcorners, hmem⟩
    rcases halone p (mem_arranged.mpr hp) with ⟨hself, hconns⟩
    refine ⟨c, hcorners, ?_, ?_⟩
    · rcases (hmem p.1).mp ((hself p.1).mpr rfl) with ⟨s, hs, hreached⟩
      cases (hlookup p hp).symm.trans hs
      exact hreached
    · intro q hq hne
      constructor
      · intro hreached
        exact hne ((hself q.1).mp ((hmem q.1).mpr ⟨q.2, hlookup q hq, hreached⟩))
      · exact hconns q (mem_arranged.mpr hq) hne

/-- Players apart from each other get their own views. -/
theorem ownView_of_apart (h : r.Valid) (haoi : r.cfg.enableAoi = true) (hticked : r.lastTickMs ≠ 0)
    (hapart : r.Apart) (o : Orders) (nowMs : UInt64) : r.OwnView o nowMs := by
  rcases eq_or_ne r.players [] with hnil | hplayers
  · rcases h.spatial haoi with ⟨g, hspatial⟩
    obtain ⟨r', out, htick⟩ : ∃ r' out, r.tick o nowMs = some (r', out) :=
      tick_of_nobody hticked hnil hspatial
    refine ⟨r', out, htick, ?_⟩
    intro id state hstate
    rw [hnil] at hstate
    cases hstate
  rcases hapart.resolve_left hplayers with ⟨hbroadcasts, g, hspatial, hindex, hreach⟩
  have hplace : ∀ p ∈ r.places o, ∃ idx, g.index p.2 = some idx := by
    intro p hp
    rcases List.mem_map.mp hp with ⟨q, hq, rfl⟩
    exact Option.isSome_iff_exists.mp (hindex q (mem_arranged.mp hq))
  obtain ⟨g', hinsert, -⟩ := (holds_clear g (g.place (r.places o))).insertAll
    (index_eq_place (nodup_places h o) hplace)
  -- a query returns the player it is made for
  have hsight : ∀ p ∈ r.players,
      g'.queryRange p.2.pos.x p.2.pos.z r.cfg.aoiRadius = some (r.sight g' p.2) ∧
        (r.sight g' p.2).Nodup ∧ ∀ j, j ∈ r.sight g' p.2 ↔ j = p.1 := by
    intro p hp
    rcases hreach p hp with ⟨c, hcorners, hself, hother⟩
    rcases queryRange_spec (nodup_places h o) hinsert hcorners with ⟨nearby, hquery, -⟩
    rcases sight_spec h hinsert hquery with ⟨c', hcorners', hnodup, hmem⟩
    cases hcorners.symm.trans hcorners'
    rw [sight, hquery]
    refine ⟨rfl, hnodup, ?_⟩
    intro j
    rw [Option.getD_some, hmem]
    constructor
    · rintro ⟨s, hs, hreached⟩
      by_contra hne
      exact (hother (j, s) (Assoc.mem_of_lookup hs) hne).1 hreached
    · rintro rfl
      exact ⟨p.2, (Assoc.mem_iff_lookup h.keyed).mp hp, hself⟩
  have halone : (r.ticked nowMs g').Alone (fun p => r.sight g' p.2) (r.arranged o) := by
    intro p hp
    rcases hreach p (mem_arranged.mp hp) with ⟨_, -, -, hother⟩
    refine ⟨(hsight p (mem_arranged.mp hp)).2.2, ?_⟩
    intro q hq hne
    exact (hother q (mem_arranged.mp hq) hne).2
  have hconns : ∀ p ∈ r.arranged o, ∃ conn, r.playerToConn.lookup p.1 = some conn := by
    intro p hp
    exact h.conns p.1 p.2 ((Assoc.mem_iff_lookup h.keyed).mp (mem_arranged.mp hp))
  have htick : r.tick o nowMs = some (r.ticked nowMs g',
      (r.arranged o).map fun p => broadcastOf (r.ticked nowMs g') (r.sight g' p.2)) :=
    (tick_eq_some haoi hticked hplayers hbroadcasts hspatial).mpr
      ⟨g', hinsert, rfl, fun p hp => ⟨_, (hsight p hp).1⟩, rfl⟩
  refine ⟨_, _, htick, ?_⟩
  intro id state hstate
  have hp := mem_arranged (o := o).mpr (Assoc.mem_of_lookup hstate)
  rcases hconns _ hp with ⟨conn, hconn⟩
  refine ⟨g', conn, r.sight g' state, rfl, hconn, (hsight _ (mem_arranged.mp hp)).1, ?_⟩
  rw [zip_keys]
  exact deliveries_of_alone (r := r.ticked nowMs g') (nodup_arranged h o) hconns
    (fun q hq => (hsight q (mem_arranged.mp hq)).2.1) halone hp hconn

/-- In every tick of every room with AOI: everybody gets its own view and no other, if and only if
the players are apart from each other. -/
theorem ownView_iff (cfg : RoomConfig) (broadcasts : Bool) (msgs : List Message) (r₀ r : Room)
    (o : Orders) (nowMs : UInt64) (hnew : new cfg broadcasts = some r₀)
    (hrun : run next r₀ msgs = some r) (haoi : r.cfg.enableAoi = true) (hticked : r.lastTickMs ≠ 0) :
    r.OwnView o nowMs ↔ r.Apart := by
  have hvalid := valid_of_run hnew hrun
  constructor
  · exact apart_of_ownView hvalid haoi hticked
  · intro hapart
    exact ownView_of_apart hvalid haoi hticked hapart o nowMs

/-- A room of the default size. -/
theorem new_default : ∃ g, new {} true = some { cfg := {}, broadcasts := true, spatial := some g } := by
  have hcells : toInt ⌈(1000 : ℚ) / 200⌉ = some 5 := by norm_num [toInt, truncate]
  have hgrid : (GridSpatialIndex.new 1000 1000 200).isSome := by
    rw [GridSpatialIndex.new, dif_neg (by norm_num), hcells]
    rfl
  rcases Option.isSome_iff_exists.mp hgrid with ⟨g, hg⟩
  refine ⟨g, ?_⟩
  rw [new, if_pos rfl]
  change (GridSpatialIndex.new 1000 1000 200).map _ = _
  rw [hg, Option.map_some]

/-- Two players enter, and the clock is set. -/
def twoEnter (pos pos' : Vec3 ℚ) : List Message :=
  [.playerEnter 1 11 pos, .playerEnter 2 12 pos', .roomTick 1000 ⟨Order.asIs, Order.asIs⟩]

/-- The room they are in. -/
def twoPlayers (g : GridSpatialIndex) (pos pos' : Vec3 ℚ) : Room where
  cfg := {}
  broadcasts := true
  lastTickMs := 1000
  players := [(1, { playerId := 1, pos := pos }), (2, { playerId := 2, pos := pos' })]
  playerToConn := [(1, 11), (2, 12)]
  spatial := some g

theorem ticked_twoPlayers (g : GridSpatialIndex) (pos pos' : Vec3 ℚ) :
    (twoPlayers g pos pos').lastTickMs ≠ 0 := by
  have hclock : (1000 : UInt64) ≠ 0 := by decide
  exact hclock

theorem run_twoEnter (g : GridSpatialIndex) (pos pos' : Vec3 ℚ) :
    run next { cfg := {}, broadcasts := true, spatial := some g } (twoEnter pos pos') =
      some (twoPlayers g pos pos') := by
  rfl

/-- Two players at opposite ends of the map. -/
theorem ownView_iff_two : ∃ g, new {} true = some { cfg := {}, broadcasts := true, spatial := some g } ∧
    ∃ r, run next { cfg := {}, broadcasts := true, spatial := some g }
      (twoEnter ⟨100, 0, 100⟩ ⟨900, 0, 900⟩) = some r ∧
        (r.OwnView ⟨Order.asIs, Order.asIs⟩ 1050 ↔ r.Apart) := by
  rcases new_default with ⟨g, hnew⟩
  exact ⟨g, hnew, _, run_twoEnter g _ _, ownView_iff {} true _ _ _ ⟨Order.asIs, Order.asIs⟩ 1050
    hnew (run_twoEnter g _ _) rfl (ticked_twoPlayers g _ _)⟩

/-- Each of two players at one place is sent the view of the other, too. -/
theorem not_ownView : ¬ ∀ (cfg : RoomConfig) (msgs : List Message) (r₀ r : Room) (o : Orders)
    (nowMs : UInt64), new cfg true = some r₀ → run next r₀ msgs = some r → r.cfg.enableAoi = true →
    r.lastTickMs ≠ 0 → r.OwnView o nowMs := by
  intro h
  rcases new_default with ⟨g, hnew⟩
  have hrun := run_twoEnter g ⟨500, 0, 500⟩ ⟨500, 0, 500⟩
  have hown := h {} _ _ _ ⟨Order.asIs, Order.asIs⟩ 1050 hnew hrun rfl (ticked_twoPlayers g _ _)
  have hapart := apart_of_ownView (valid_of_run hnew hrun) rfl (ticked_twoPlayers g _ _) hown
  rcases hapart.resolve_left (by simp [twoPlayers]) with ⟨-, g', -, -, hreach⟩
  rcases hreach _ List.mem_cons_self with ⟨c, -, hself, hother⟩
  exact (hother _ (List.mem_cons_of_mem _ List.mem_cons_self) (by decide)).1 hself

end Room

end Gmaker.Realtime.Aoi
