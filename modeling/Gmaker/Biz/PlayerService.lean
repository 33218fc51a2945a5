import Gmaker.Net.Packet

/-!
# Gmaker.Biz.PlayerService — the packet handlers of Biz

`handleBizPacket` takes a packet that the gateway forwarded, with the connection's ID
before the payload, and says what it asks of the database and what it answers. What the
database and Redis reply is in the environment. `writtenRow` reads out of a statement
which row of `player_profiles` it names, and `handleBizPacket_execs` says which statements
a packet leads to.
-/

namespace Gmaker.Biz

open Gmaker.Lib Gmaker.Net

/-! ## Numbers as text -/

/-- `strconv.FormatUint(n, 10)`. -/
def formatUint (n : UInt64) : String := n.toNat.repr

/-- The loop of `strconv.ParseUint`: a character that is no digit makes it 0, a number
that is too large the largest one. -/
def parseDigits : List Char → ℕ → UInt64
  | [], n => UInt64.ofNat n
  | c :: cs, n =>
    if ¬ c.isDigit then 0
    else if 2 ^ 64 ≤ 10 * n + (c.toNat - 48) then UInt64.ofNat (2 ^ 64 - 1)
    else parseDigits cs (10 * n + (c.toNat - 48))

/-- `strconv.ParseUint(s, 10, 64)`, without the error. -/
def parseUint (s : String) : UInt64 := parseDigits s.toList 0

/-- A number that fits is read as it is. -/
theorem parseDigits_eq {s : List Char} {n : ℕ} (hs : s.all Char.isDigit = true)
    (hfits : Nat.ofDigitChars 10 s n < 2 ^ 64) :
    parseDigits s n = UInt64.ofNat (Nat.ofDigitChars 10 s n) := by
  induction s generalizing n with
  | nil => rfl
  | cons c s ih =>
    rw [List.all_cons, Bool.and_eq_true] at hs
    have hzero : '0'.toNat = 48 := rfl
    rw [Nat.ofDigitChars_cons, hzero] at hfits ⊢
    have hle : 10 * n + (c.toNat - 48) ≤ Nat.ofDigitChars 10 s (10 * n + (c.toNat - 48)) := by
      rw [Nat.ofDigitChars_eq_ofDigitChars_zero]
      have hpow : 1 * (10 * n + (c.toNat - 48)) ≤ 10 ^ s.length * (10 * n + (c.toNat - 48)) :=
        Nat.mul_le_mul_right _ (Nat.one_le_two_pow.trans (Nat.pow_le_pow_left (by decide) _))
      omega
    rw [parseDigits, if_neg (not_not.mpr hs.1), if_neg (by omega)]
    exact ih hs.2 hfits

theorem parseUint_repr {n : ℕ} (hn : n < 2 ^ 64) : parseUint n.repr = UInt64.ofNat n := by
  have hdigits : (Nat.toDigits 10 n).all Char.isDigit = true :=
    List.all_eq_true.mpr fun _ hc => Nat.isDigit_of_mem_toDigits (by decide) (by decide) hc
  have hvalue : Nat.ofDigitChars 10 (Nat.toDigits 10 n) 0 = n := Nat.ofDigitChars_ten_toDigits
  rw [parseUint, Nat.toList_repr, parseDigits_eq hdigits (by rwa [hvalue]), hvalue]

@[simp] theorem parseUint_formatUint (n : UInt64) : parseUint (formatUint n) = n := by
  rw [formatUint, parseUint_repr n.toNat_lt]
  exact UInt64.ofNat_toNat

theorem formatUint_inj {m n : UInt64} : formatUint m = formatUint n ↔ m = n :=
  Nat.repr_inj.trans UInt64.toNat_inj

/-! ## Messages -/

/-- `bizpb.PlayerBase`. -/
structure PlayerBase where
  playerId : UInt64
  nickname : String
  level : UInt32
  exp : UInt64
  coin : UInt64
  diamond : UInt64
  createAt : UInt64
  loginAt : UInt64
deriving DecidableEq

/-- `bizpb.UpdatePlayerReq`. -/
structure UpdatePlayerReq where
  playerId : UInt64 := 0
  /-- empty: not changed -/
  nickname : String := ""
  coin : UInt64 := 0
  diamond : UInt64 := 0
deriving DecidableEq

/-- `chatpb.ChatRoomInfo`. -/
structure ChatRoomInfo where
  roomId : UInt64 := 0
  name : String := ""
  creatorId : UInt64 := 0
  status : UInt32 := 0
  createdAt : UInt64 := 0
  closedAt : UInt64 := 0
deriving DecidableEq

/-- `proto.Unmarshal` of the messages that Biz reads. -/
structure BizCodec where
  /-- `GetPlayerReq` -/
  parseGetPlayer : Bytes → Option UInt64
  parseUpdatePlayer : Bytes → Option UpdatePlayerReq
  /-- `GetPlayerRoomsReq` -/
  parseGetPlayerRooms : Bytes → Option UInt64
  /-- `Ping` -/
  parsePing : Bytes → Option UInt64
  /-- `PlayerBindReq`: the player and the token -/
  parsePlayerBind : Bytes → Option (UInt64 × String)
  parseChatRoomInfo : String → Option ChatRoomInfo

def cmdGetPlayerReq : UInt32 := 0x10000
def cmdGetPlayerRes : UInt32 := 0x10001
def cmdPing : UInt32 := 0x10004
def cmdPong : UInt32 := 0x10005
def cmdUpdatePlayerReq : UInt32 := 0x10006
def cmdUpdatePlayerRes : UInt32 := 0x10007
def cmdGetPlayerRoomsReq : UInt32 := 0x10008
def cmdGetPlayerRoomsRes : UInt32 := 0x10009
def cmdPlayerBind : UInt32 := 0x1020

/-- A message to a client. -/
inductive BizRes where
  | getPlayer (code : UInt32) (player : Option PlayerBase)
  | updatePlayer (code : UInt32)
  | getPlayerRooms (code : UInt32) (rooms : List ChatRoomInfo)
  | pong (clientTime serverTime : UInt64)
  | playerBind (code : UInt32) (msg : String)
  /-- without a database -/
  | unavailable
deriving DecidableEq

/-- What `SendProto` sends to the gateway. -/
structure BizReply where
  gatewayConnId : UInt64
  seqId : UInt32
  cmdId : UInt32
  res : BizRes
deriving DecidableEq

/-! ## The database -/

/-- `dbproxypb.MySQLQueryReq`, `dbproxypb.MySQLExecReq`. -/
structure MySQLReq where
  uid : UInt64
  sql : String
  args : List String
deriving DecidableEq

/-- A call to the database proxy. -/
inductive DbCall where
  | query (req : MySQLReq)
  | exec (req : MySQLReq)
deriving DecidableEq

/-- `dbproxypb.MySQLRow`: names and values of its columns. -/
abbrev MySQLRow := List (String × String)

/-- `dbproxypb.MySQLQueryRes`. -/
structure MySQLQueryRes where
  ok : Bool
  rows : List MySQLRow
deriving DecidableEq

/-- What Redis answers; `none` is an error. -/
structure Redis where
  get : String → Option String
  sMembers : String → Option (List String)

/-- What Biz meets while it handles a packet; `none` is a call that failed, or a reply
that cannot be read. -/
structure BizEnv where
  /-- whether there is a `PlayerService` -/
  up : Bool := true
  now : UInt64 := 0
  query : Option MySQLQueryRes := none
  /-- `ok` of `MySQLExecRes` -/
  exec : Option Bool := none
  redis : Option Redis := none
  botMasterKey : String := ""

/-- What a handler does. -/
structure Handled where
  calls : List DbCall := []
  reply : Option BizReply := none

/-! ## `PlayerService` -/

/-- The value of a column in `parsePlayerRow`: of two of one name the later one. -/
def column (row : MySQLRow) (name : String) : String := (row.reverse.lookup name).getD ""

/-- `parsePlayerRow`. -/
def parsePlayerRow (row : MySQLRow) : PlayerBase where
  playerId := parseUint (column row "player_id")
  nickname := column row "nickname"
  level := (parseUint (column row "level")).toUInt32
  exp := parseUint (column row "exp")
  coin := parseUint (column row "coin")
  diamond := parseUint (column row "diamond")
  createAt := parseUint (column row "create_at")
  loginAt := parseUint (column row "login_at")

/-- The statement of `QueryPlayerByID`. -/
def selectProfileSql : String :=
  "SELECT player_id, nickname, level, exp, coin, diamond, create_at, login_at FROM player_profiles WHERE player_id = ?"

/-- The statement of `initDefaultProfile`. -/
def insertProfileSql : String :=
  "INSERT IGNORE INTO player_profiles (player_id, nickname, level, exp, coin, diamond, create_at, login_at) VALUES (?, ?, 1, 0, 0, 0, ?, ?)"

/-- The statement of `CreatePlayer`. -/
def insertPlayerSql : String :=
  "INSERT INTO player_profiles (player_id, nickname, level, exp, coin, diamond, create_at, login_at) VALUES (?, ?, 1, 0, 0, 0, ?, ?)"

/-- The statement of `UpdatePlayer`. -/
def updateProfileSql (parts : List String) : String :=
  "UPDATE player_profiles SET " ++ ", ".intercalate parts ++ " WHERE player_id = ?"

/-- The request of `initDefaultProfile`. -/
def initDefaultProfile (env : BizEnv) (playerId : UInt64) : MySQLReq where
  uid := playerId
  sql := insertProfileSql
  args := [formatUint playerId, "Player" ++ formatUint playerId, formatUint env.now,
    formatUint env.now]

/-- The profile that `initDefaultProfile` returns. -/
def defaultProfile (env : BizEnv) (playerId : UInt64) : PlayerBase where
  playerId := playerId
  nickname := "Player" ++ formatUint playerId
  level := 1
  exp := 0
  coin := 0
  diamond := 0
  createAt := env.now
  loginAt := env.now

/-- `QueryPlayerByID`: a player without a row gets one. -/
def queryPlayerById (env : BizEnv) (playerId : UInt64) : List DbCall × Option PlayerBase :=
  let query := DbCall.query ⟨playerId, selectProfileSql, [formatUint playerId]⟩
  match env.query with
  | none => ([query], none)
  | some res =>
    match res.ok, res.rows with
    | true, row :: _ => ([query], some (parsePlayerRow row))
    | _, _ => ([query, .exec (initDefaultProfile env playerId)],
        env.exec.map fun _ => defaultProfile env playerId)

/-- The nickname that `CreatePlayer` uses: without one the player has the default one. -/
def createdNickname (playerId : UInt64) (nickname : String) : String :=
  if nickname = "" then "Player" ++ formatUint playerId else nickname

/-- The request of `CreatePlayer`. -/
def createPlayerReq (env : BizEnv) (playerId : UInt64) (nickname : String) : MySQLReq where
  uid := playerId
  sql := insertPlayerSql
  args := [formatUint playerId, createdNickname playerId nickname, formatUint env.now,
    formatUint env.now]

/-- `CreatePlayer`, and the profile it answers with. -/
def createPlayer (env : BizEnv) (playerId : UInt64) (nickname : String) :
    List DbCall × Option PlayerBase :=
  ([.exec (createPlayerReq env playerId nickname)],
    if env.exec = some true then
      some { defaultProfile env playerId with nickname := createdNickname playerId nickname }
    else none)

/-- The request of `UpdatePlayer`. -/
def updatePlayerReq (env : BizEnv) (playerId : UInt64) (nickname : String)
    (coin diamond : UInt64) : MySQLReq where
  uid := playerId
  sql := updateProfileSql ((if nickname ≠ "" then ["nickname = ?"] else []) ++
    ["coin = ?", "diamond = ?", "login_at = ?"])
  args := (if nickname ≠ "" then [nickname] else []) ++
    [formatUint coin, formatUint diamond, formatUint env.now] ++ [formatUint playerId]

/-- `UpdatePlayer`, and whether it succeeds. -/
def updatePlayer (env : BizEnv) (playerId : UInt64) (nickname : String) (coin diamond : UInt64) :
    List DbCall × Bool :=
  ([.exec (updatePlayerReq env playerId nickname coin diamond)], env.exec = some true)

/-- `VerifyToken`; `none` is an error. -/
def verifyToken (env : BizEnv) (playerId : UInt64) (token : String) : Option Bool := do
  let redis ← env.redis
  let storedToken ← redis.get ("token:" ++ formatUint playerId)
  return storedToken = token

/-- `GetPlayerRooms`; `none` is an error. -/
def getPlayerRooms (codec : BizCodec) (env : BizEnv) (playerId : UInt64) :
    Option (List ChatRoomInfo) := do
  let redis ← env.redis
  let roomIds ← redis.sMembers ("player:" ++ formatUint playerId ++ ":rooms")
  return roomIds.filterMap fun ridStr =>
    let rid := parseUint ridStr
    if rid = 0 then none
    else
      match redis.get ("chat:room:" ++ formatUint rid ++ ":info") with
      | none => none
      | some infoStr => if infoStr = "" then none else codec.parseChatRoomInfo infoStr

/-! ## The handlers -/

section Handlers

variable (codec : BizCodec) (env : BizEnv)

/-- `handleGetPlayer`. -/
def handleGetPlayer (payload : Bytes) : List DbCall × BizRes :=
  match codec.parseGetPlayer payload with
  | none => ([], .getPlayer 1 none)
  | some playerId =>
    match queryPlayerById env playerId with
    | (calls, none) => (calls, .getPlayer 1 none)
    | (calls, some player) => (calls, .getPlayer 0 (some player))

/-- `handleUpdatePlayer`. -/
def handleUpdatePlayer (payload : Bytes) : List DbCall × BizRes :=
  match codec.parseUpdatePlayer payload with
  | none => ([], .updatePlayer 1)
  | some req =>
    let (calls, ok) := updatePlayer env req.playerId req.nickname req.coin req.diamond
    (calls, .updatePlayer (if ok then 0 else 1))

/-- `handleGetPlayerRooms`. -/
def handleGetPlayerRooms (payload : Bytes) : BizRes :=
  match (codec.parseGetPlayerRooms payload).bind (getPlayerRooms codec env) with
  | none => .getPlayerRooms 1 []
  | some rooms => .getPlayerRooms 0 rooms

/-- `handlePlayerBind`. -/
def handlePlayerBind (payload : Bytes) : BizRes :=
  match codec.parsePlayerBind payload with
  | none => .playerBind 1 "invalid request"
  | some (playerId, token) =>
    if env.botMasterKey ≠ "" ∧ token = env.botMasterKey then .playerBind 0 "ok"
    else if env.redis.isNone then .playerBind 2 "redis not available"
    else if verifyToken env playerId token = some true then .playerBind 0 "ok"
    else .playerBind 1 "invalid token"

/-- `OnData` and `HandleBizPacket`: the ID of the gateway's connection is taken off the
payload first. -/
def handleBizPacket (cmdId seqId : UInt32) (payload : Bytes) : Handled :=
  let gatewayConnId := if 8 ≤ payload.length then readU64BE payload 0 else 0
  let body := if 8 ≤ payload.length then payload.drop 8 else payload
  let answer (cmdId : UInt32) (res : BizRes) : Option BizReply :=
    some { gatewayConnId, seqId, cmdId, res }
  if ¬ env.up then { reply := answer (cmdId + 1) .unavailable }
  else if cmdId = cmdGetPlayerReq then
    let (calls, res) := handleGetPlayer codec env body
    { calls, reply := answer cmdGetPlayerRes res }
  else if cmdId = cmdUpdatePlayerReq then
    let (calls, res) := handleUpdatePlayer codec env body
    { calls, reply := answer cmdUpdatePlayerRes res }
  else if cmdId = cmdGetPlayerRoomsReq then
    { reply := answer cmdGetPlayerRoomsRes (handleGetPlayerRooms codec env body) }
  else if cmdId = cmdPing then
    { reply := (codec.parsePing body).bind fun time => answer cmdPong (.pong time env.now) }
  else if cmdId = cmdPlayerBind then
    { reply := answer cmdPlayerBind (handlePlayerBind codec env body) }
  else {}

end Handlers

/-! ## Which rows are written -/

/-- The row of `player_profiles` that a statement names: `INSERT` in its first argument,
`UPDATE` in the `WHERE` at its end. -/
def writtenRow (req : MySQLReq) : Option String :=
  if req.sql = insertProfileSql then req.args.head? else req.args.getLast?

theorem writtenRow_initDefaultProfile (env : BizEnv) (playerId : UInt64) :
    writtenRow (initDefaultProfile env playerId) = some (formatUint playerId) := by
  unfold writtenRow
  rw [if_pos (show (initDefaultProfile env playerId).sql = insertProfileSql from rfl)]
  rfl

theorem writtenRow_updatePlayerReq (env : BizEnv) (playerId : UInt64) (nickname : String)
    (coin diamond : UInt64) :
    writtenRow (updatePlayerReq env playerId nickname coin diamond) =
      some (formatUint playerId) := by
  have hsql : (updatePlayerReq env playerId nickname coin diamond).sql ≠ insertProfileSql := by
    unfold updatePlayerReq
    by_cases hname : nickname = ""
    · simp only [hname, ne_eq, not_true_eq_false, if_false]
      decide +kernel
    · simp only [ne_eq, hname, not_false_eq_true, if_true]
      decide +kernel
  unfold writtenRow
  rw [if_neg hsql]
  exact List.getLast?_concat

/-- Whose profile a packet makes Biz write: what the body says. -/
def namedProfile (codec : BizCodec) (env : BizEnv) (cmdId : UInt32) (body : Bytes) :
    Option UInt64 :=
  if ¬ env.up then none
  else if cmdId = cmdGetPlayerReq then
    -- a profile that is found is only read
    match codec.parseGetPlayer body, env.query with
    | some playerId, some res => if res.ok ∧ res.rows ≠ [] then none else some playerId
    | _, _ => none
  else if cmdId = cmdUpdatePlayerReq then (codec.parseUpdatePlayer body).map (·.playerId)
  else none

theorem queryPlayerById_execs (env : BizEnv) (playerId : UInt64) {req : MySQLReq} :
    .exec req ∈ (queryPlayerById env playerId).1 ↔
      (∃ res, env.query = some res ∧ ¬ (res.ok ∧ res.rows ≠ [])) ∧
        req = initDefaultProfile env playerId := by
  unfold queryPlayerById
  cases env.query with
  | none => simp
  | some res =>
    rcases res with ⟨_ | _, _ | ⟨row, rows⟩⟩ <;> simp

theorem handleGetPlayer_calls (codec : BizCodec) (env : BizEnv) (body : Bytes) :
    (handleGetPlayer codec env body).1 =
      ((codec.parseGetPlayer body).map fun playerId => (queryPlayerById env playerId).1).getD [] := by
  unfold handleGetPlayer
  cases codec.parseGetPlayer body with
  | none => rfl
  | some playerId =>
    simp only [Option.map_some, Option.getD_some]
    split
    · rename_i h
      rw [h]
    · rename_i h
      rw [h]

theorem handleUpdatePlayer_calls (codec : BizCodec) (env : BizEnv) (body : Bytes) :
    (handleUpdatePlayer codec env body).1 =
      ((codec.parseUpdatePlayer body).map fun req => [DbCall.exec
        (updatePlayerReq env req.playerId req.nickname req.coin req.diamond)]).getD [] := by
  unfold handleUpdatePlayer
  cases codec.parseUpdatePlayer body <;> rfl

/-- The statements that a packet of the gateway leads to all name the row that its body
says, whoever sent it. -/
theorem handleBizPacket_execs (codec : BizCodec) (env : BizEnv) (cmdId seqId : UInt32)
    (conn : UInt64) (body : Bytes) (row : Option String) :
    (∃ req, .exec req ∈ (handleBizPacket codec env cmdId seqId (writeU64BE conn ++ body)).calls ∧
      writtenRow req = row) ↔
    ∃ playerId, namedProfile codec env cmdId body = some playerId ∧
      row = some (formatUint playerId) := by
  have hlong : 8 ≤ (writeU64BE conn ++ body).length := by simp
  have hbody : (writeU64BE conn ++ body).drop 8 = body := List.drop_left' (length_writeU64BE conn)
  unfold handleBizPacket namedProfile
  simp only [if_pos hlong, hbody]
  by_cases hup : env.up = true
  swap
  · simp [hup]
  rw [if_neg (not_not.mpr hup), if_neg (not_not.mpr hup)]
  split_ifs with hget hupdate
  · rw [handleGetPlayer_calls]
    cases codec.parseGetPlayer body with
    | none => simp
    | some playerId =>
      simp only [Option.map_some, Option.getD_some, queryPlayerById_execs]
      cases env.query with
      | none => simp
      | some res =>
        by_cases hfound : res.ok = true ∧ res.rows ≠ []
        · simp [hfound]
        · simp only [if_neg hfound]
          constructor
          · rintro ⟨req, ⟨-, rfl⟩, rfl⟩
            exact ⟨playerId, rfl, writtenRow_initDefaultProfile env playerId⟩
          · rintro ⟨id, ⟨⟩, rfl⟩
            exact ⟨_, ⟨⟨res, rfl, hfound⟩, rfl⟩, writtenRow_initDefaultProfile env playerId⟩
  · rw [handleUpdatePlayer_calls]
    cases codec.parseUpdatePlayer body with
    | none => simp
    | some req => simp [writtenRow_updatePlayerReq, eq_comm]
  all_goals simp

end Gmaker.Biz
