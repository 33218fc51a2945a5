import Gmaker.Dbproxy.Server

/-!
# Gmaker.Dbproxy.Profiles — Biz, the proxy and the table of profiles

The calls that Biz makes to DBProxy and what they do to `player_profiles`. Of MySQL only
what its documentation says of the three statements is used (`MySQL`): it stores an argument
in the type of its column, or refuses the statement. A call may fail, its reply may be
unreadable, and the proxy may refuse it without running it. `queryRes_cases` says what Biz
can get of a player's row.
-/

namespace Gmaker.Dbproxy

open Gmaker.Lib Gmaker.Biz

/-! ## The table -/

/-- A row of `player_profiles` beside its key, in the types of the columns. -/
structure ProfileRow where
  nickname : String
  level : Int32 := 1
  exp : Int64 := 0
  coin : Int64 := 0
  diamond : Int64 := 0
  createAt : Int64 := 0
  loginAt : Int64 := 0
deriving DecidableEq

namespace Arg

/-- What a `BIGINT` column makes of an argument. -/
def bigint : Arg → Option Int64
  | int n => some n
  | text s => match parseInt 64 s with
    | (n, true) => some (Int64.ofInt n)
    | (_, false) => none

/-- What a `VARCHAR` column makes of an argument. -/
def varchar : Arg → String
  | int n => n.toInt.repr
  | text s => s

end Arg

/-- The columns that `QueryPlayerByID` selects. -/
def profileColumns : List String :=
  ["player_id", "nickname", "level", "exp", "coin", "diamond", "create_at", "login_at"]

/-- The values of a whole number in a result set: a number of a prepared statement, a text
otherwise. -/
def encodeInt (prepared : Bool) (n : ℤ) : SqlValue :=
  if prepared then .int64 (Int64.ofInt n) else .bytes n.repr.toByteArray

/-- The values of the selected columns. -/
def encodeRow (prepared : Bool) (id : Int64) (r : ProfileRow) : List SqlValue :=
  [encodeInt prepared id.toInt, .bytes r.nickname.toByteArray, encodeInt prepared r.level.toInt,
    encodeInt prepared r.exp.toInt, encodeInt prepared r.coin.toInt,
    encodeInt prepared r.diamond.toInt, encodeInt prepared r.createAt.toInt,
    encodeInt prepared r.loginAt.toInt]

/-- The parts of the statement of `UpdatePlayer`. -/
def updateParts (named : Bool) : List String :=
  (if named then ["nickname = ?"] else []) ++ ["coin = ?", "diamond = ?", "login_at = ?"]

/-- MySQL as the statements on `player_profiles` use it. A query can fail only as its fate
says, a write also for what is in the table. -/
structure MySQL where
  Store : Type
  /-- The row with a key. -/
  row : Store → Int64 → Option ProfileRow
  exec : Store → String → List Arg → Except String (Store × Int64 × Int64)
  query : Store → String → List Arg → List String × List (List SqlValue)
  /-- Whether the driver prepares its statements. -/
  prepared : Bool
  /-- An inserted row has what was given, in the types of the columns. -/
  exec_insert : ∀ {s s' : Store} {id nickname createAt loginAt : Arg} {ids : Int64 × Int64},
    exec s insertPlayerSql [id, nickname, createAt, loginAt] = .ok (s', ids) →
      ∃ k r, id.bigint = some k ∧ row s' k = some r ∧ r.nickname = nickname.varchar ∧
        r.coin = 0 ∧ r.diamond = 0
  /-- An updated row has what was given, in the types of the columns, and what was not named
  as it was. An update makes no row. -/
  exec_update : ∀ {s s' : Store} {id coin diamond loginAt : Arg} {nickname : Option Arg}
      {ids : Int64 × Int64} {k : Int64},
    exec s (updateProfileSql (updateParts nickname.isSome))
        (nickname.toList ++ [coin, diamond, loginAt] ++ [id]) = .ok (s', ids) →
      id.bigint = some k →
      (row s k = none → row s' k = none) ∧
        ∀ r, row s k = some r → ∃ r', row s' k = some r' ∧
          r'.nickname = (nickname.map Arg.varchar).getD r.nickname ∧
          (∀ z, coin.bigint = some z → r'.coin = z) ∧
          ∀ z, diamond.bigint = some z → r'.diamond = z
  /-- A row is found by its key. -/
  query_select : ∀ (s : Store) (id : Arg),
    query s selectProfileSql [id] =
      (profileColumns, (id.bigint.bind fun k => (row s k).map (encodeRow prepared k)).toList)

/-! ## The calls -/

/-- How a query goes at the proxy. -/
inductive QueryFate where
  /-- MySQL does not answer, or not in time -/
  | fails (err : String)
  | iterates (closed : Bool) (fate : ℕ → RowFate)

/-- How a call that asks for rows goes. -/
inductive QueryCall where
  /-- `Call` fails, or the reply cannot be unmarshalled -/
  | lost
  /-- the proxy answers without running it, as when it is busy -/
  | refused (err : String)
  | served (fate : QueryFate)

/-- How a call that writes goes. -/
inductive ExecCall where
  /-- it is lost (`none`), or answered by an error; the statement may have run all the same -/
  | fails (ran : Bool) (err : Option String)
  | served

/-- `mysql.Proxy`: the shards. -/
structure Proxy (m : MySQL) where
  shards : List m.Store

namespace Proxy

variable {m : MySQL}

/-- `RouteUID`, and the shard. -/
def shard (p : Proxy m) (uid : UInt64) : Option m.Store := p.shards[uid.toNat % p.shards.length]?

/-- The player's row. -/
def row (p : Proxy m) (playerId : UInt64) : Option ProfileRow :=
  (p.shard playerId).bind fun s =>
    (Arg.text (formatUint playerId)).bigint.bind fun k => m.row s k

/-- `QueryByUID`. -/
def queryByUid (p : Proxy m) (fate : QueryFate) (uid : UInt64) (sql : String) (args : List Arg) :
    Except String Rows :=
  match p.shard uid with
  | none => .error "no shard available"
  | some s =>
    match fate with
    | .fails err => .error err
    | .iterates closed fate =>
      let (columns, resultSet) := m.query s sql args
      .ok { columns, resultSet, closed, fate }

/-- `ExecByUID`, on the shards. -/
def execByUid (p : Proxy m) (uid : UInt64) (sql : String) (args : List Arg) :
    Except String (Proxy m × Int64 × Int64) :=
  match p.shard uid with
  | none => .error "no shard available"
  | some s => (m.exec s sql args).map fun (s', ids) =>
      ({ shards := p.shards.set (uid.toNat % p.shards.length) s' }, ids)

end Proxy

/-- `proto.Marshal` of a row: a text has to be UTF-8. -/
def marshalRow (row : RawRow) : Option MySQLRow :=
  row.mapM fun (name, value) => (String.fromUTF8? value).map (name, ·)

/-- What Biz unmarshals as a `MySQLQueryRes`: of a `MySQLExecRes` it gets that it is right or
not. Where the marshalling fails nothing is sent. -/
def receiveQueryRes : DbReply → Option MySQLQueryRes
  | .query ok _ rows => (rows.mapM marshalRow).map fun rows => { ok, rows }
  | .exec ok .. => some { ok, rows := [] }

/-- What Biz gets of a query. -/
def queryRes {m : MySQL} (f : Formats) (p : Proxy m) (req : MySQLReq) : QueryCall →
    Option MySQLQueryRes
  | .lost => none
  | .refused err => receiveQueryRes (sendError err)
  | .served fate => receiveQueryRes (handleMySQLQuery f (.ok req) (p.queryByUid fate))

/-- What Biz gets of a statement, the `Ok` of its reply, and the shards afterwards. -/
def execRes {m : MySQL} (p : Proxy m) (req : MySQLReq) (call : ExecCall) : Option Bool × Proxy m :=
  let ran := p.execByUid req.uid req.sql (req.args.map bindArg)
  let after := match ran with
    | .ok (p', _) => p'
    | .error _ => p
  match call with
  | .fails false err => (err.map fun err => (sendError err).ok, p)
  | .fails true err => (err.map fun err => (sendError err).ok, after)
  | .served => (some (handleMySQLExec (.ok req) fun _ _ _ => ran.map (·.2)).ok, after)

/-! ## Numbers through the table -/

/-- A number without a sign that is read from a column. -/
def unsigned (z : ℤ) : UInt64 := UInt64.ofNat z.toNat

theorem parseUint_intRepr {z : ℤ} (hz : z < 2 ^ 64) : Biz.parseUint z.repr = unsigned z := by
  cases z with
  | ofNat n =>
    change Biz.parseUint n.repr = UInt64.ofNat n
    have hn : (n : ℤ) < 2 ^ 64 := hz
    exact Biz.parseUint_repr (by omega)
  | negSucc n =>
    -- the sign is no digit
    have hsign : (Int.negSucc n).repr.toList = '-' :: (n + 1).repr.toList := by
      have hminus : "-".toList = ['-'] := by decide
      rw [Int.repr, String.toList_append, hminus, List.singleton_append]
    rw [Biz.parseUint, hsign]
    rfl

theorem int64_lt (z : Int64) : z.toInt < 2 ^ 64 := by
  have hlt := z.toInt_lt
  omega

theorem formatUint_eq (n : UInt64) : formatUint n = (n.toNat : ℤ).repr := rfl

/-- What a text of a number reads as. -/
theorem parseInt_formatUint (n : UInt64) :
    parseInt 64 (formatUint n) =
      if n.toNat < 2 ^ 63 then ((n.toNat : ℤ), true) else (2 ^ 63 - 1, false) := by
  rw [formatUint_eq, parseInt, parseSigned_repr]
  dsimp only
  by_cases hn : n.toNat < 2 ^ 63
  · rw [if_pos hn, if_neg (by omega), if_neg (by omega)]
  · rw [if_neg hn, if_pos (by omega)]

/-- What a number below 2^63 is bound as. -/
theorem bindArg_formatUint {n : UInt64} (hn : n.toNat < 2 ^ 63) :
    bindArg (formatUint n) = .int (Int64.ofInt n.toNat) := by
  rw [bindArg, parseInt_formatUint, if_pos hn]

theorem toInt_ofNat {n : ℕ} (hn : n < 2 ^ 63) : (Int64.ofInt n).toInt = n := by
  apply Int64.toInt_ofInt_of_le
  · omega
  · omega

/-- A column has the number of a text that fits. -/
theorem bigint_text_formatUint (n : UInt64) :
    (Arg.text (formatUint n)).bigint =
      if n.toNat < 2 ^ 63 then some (Int64.ofInt n.toNat) else none := by
  dsimp only [Arg.bigint]
  rw [parseInt_formatUint]
  split_ifs <;> rfl

/-- Whether a number is bound as a number or as a text, a column has the same. -/
theorem bigint_bindArg (n : UInt64) :
    (bindArg (formatUint n)).bigint = (Arg.text (formatUint n)).bigint := by
  rw [bigint_text_formatUint]
  by_cases hn : n.toNat < 2 ^ 63
  · rw [bindArg_formatUint hn, if_pos hn]
    rfl
  · rw [if_neg hn, bindArg, parseInt_formatUint, if_neg hn]
    dsimp only
    rw [bigint_text_formatUint, if_neg hn]

/-! ## What a query brings -/

/-- The request of `QueryPlayerByID`. -/
def selectReq (playerId : UInt64) : MySQLReq := ⟨playerId, selectProfileSql, [formatUint playerId]⟩

/-- The texts of the selected columns. -/
def rowTexts (id : UInt64) (r : ProfileRow) : MySQLRow :=
  profileColumns.zip [formatUint id, r.nickname, r.level.toInt.repr, r.exp.toInt.repr,
    r.coin.toInt.repr, r.diamond.toInt.repr, r.createAt.toInt.repr, r.loginAt.toInt.repr]

/-- The profile of a row. -/
def ProfileRow.base (id : UInt64) (r : ProfileRow) : PlayerBase where
  playerId := id
  nickname := r.nickname
  level := (unsigned r.level.toInt).toUInt32
  exp := unsigned r.exp.toInt
  coin := unsigned r.coin.toInt
  diamond := unsigned r.diamond.toInt
  createAt := unsigned r.createAt.toInt
  loginAt := unsigned r.loginAt.toInt

namespace QueryCall

/-- Nothing comes back that can be read. -/
def isLost : QueryCall → Bool
  | lost => true
  | _ => false

/-- The call brings the first row, if there is one. -/
def shows : QueryCall → Bool
  | served (.iterates closed fate) => closed = false ∧ fate 0 = .scanned
  | _ => false

end QueryCall

theorem parsePlayerRow_rowTexts (id : UInt64) (r : ProfileRow) :
    parsePlayerRow (rowTexts id r) = r.base id := by
  have hlevel : r.level.toInt < 2 ^ 64 := by
    have hlt := r.level.toInt_lt
    omega
  unfold ProfileRow.base
  rw [← parseUint_intRepr hlevel, ← parseUint_intRepr (int64_lt r.exp),
    ← parseUint_intRepr (int64_lt r.coin), ← parseUint_intRepr (int64_lt r.diamond),
    ← parseUint_intRepr (int64_lt r.createAt), ← parseUint_intRepr (int64_lt r.loginAt)]
  have hid : column (rowTexts id r) "player_id" = formatUint id := rfl
  unfold parsePlayerRow
  rw [hid, parseUint_formatUint]
  rfl

/-- A text that was UTF-8 is marshalled. -/
theorem fromUTF8_toByteArray (s : String) : String.fromUTF8? s.toByteArray = some s := by
  unfold String.fromUTF8?
  rw [dif_pos s.isValidUTF8]
  rfl

theorem valStr_encodeInt (f : Formats) (prepared : Bool) {z : ℤ} (hl : -2 ^ 63 ≤ z)
    (hu : z < 2 ^ 63) : valStr f (encodeInt prepared z) = z.repr.toByteArray := by
  cases prepared with
  | false => rfl
  | true =>
    change (Int64.ofInt z).toInt.repr.toByteArray = _
    rw [Int64.toInt_ofInt_of_le hl hu]

theorem valStr_int64 (f : Formats) (prepared : Bool) (z : Int64) :
    valStr f (encodeInt prepared z.toInt) = z.toInt.repr.toByteArray :=
  valStr_encodeInt f prepared z.le_toInt z.toInt_lt

/-- Texts that were UTF-8 are marshalled. -/
theorem marshalRow_texts (row : MySQLRow) :
    marshalRow (row.map fun p => (p.1, p.2.toByteArray)) = some row := by
  have hsome : ∀ p : String × String,
      (String.fromUTF8? p.2.toByteArray).map (p.1, ·) = pure p := by
    intro p
    rw [fromUTF8_toByteArray]
    rfl
  unfold marshalRow
  rw [List.mapM_map]
  have hpure : ((fun p : String × ByteArray => (String.fromUTF8? p.2).map (p.1, ·)) ∘
      fun p : String × String => (p.1, p.2.toByteArray)) = fun p => pure (id p) := funext hsome
  exact (congrArg (row.mapM ·) hpure).trans (List.mapM_pure.trans (congrArg some (List.map_id row)))

/-- The selected values of a row arrive as its texts. -/
theorem marshalRow_encodeRow (f : Formats) (prepared : Bool) {id : UInt64} {k : Int64}
    (hk : k.toInt = id.toNat) (r : ProfileRow) :
    marshalRow (rowCols f profileColumns (encodeRow prepared k r)) = some (rowTexts id r) := by
  have hlevel : valStr f (encodeInt prepared r.level.toInt) = r.level.toInt.repr.toByteArray := by
    have hl := r.level.le_toInt
    have hu := r.level.toInt_lt
    exact valStr_encodeInt f prepared (by omega) (by omega)
  have hid : valStr f (encodeInt prepared k.toInt) = (formatUint id).toByteArray := by
    rw [valStr_int64, hk]
    rfl
  have htexts : rowCols f profileColumns (encodeRow prepared k r) =
      (rowTexts id r).map fun p => (p.1, p.2.toByteArray) := by
    unfold rowCols encodeRow
    simp only [List.map_cons, List.map_nil]
    rw [hid, hlevel]
    simp only [valStr_int64]
    rfl
  rw [htexts]
  exact marshalRow_texts _

/-- One row at most is read, or nothing. -/
theorem readRows_toList (f : Formats) (cols : List String) (closed : Bool) (fate : ℕ → RowFate)
    (o : Option (List SqlValue)) :
    (if closed then [] else readRows f cols fate 0 o.toList) =
      if closed = false ∧ fate 0 = .scanned then (o.map (rowCols f cols)).toList else [] := by
  cases closed with
  | true => rfl
  | false =>
    rw [if_neg Bool.false_ne_true]
    cases o with
    | none => split_ifs <;> rfl
    | some vals =>
      change readRows f cols fate 0 [vals] = _
      unfold readRows
      cases hfate : fate 0 <;> rfl

section Query

variable {m : MySQL} (f : Formats) (p : Proxy m) (playerId : UInt64)

theorem row_of_shard {s : m.Store} (hs : p.shard playerId = some s) :
    p.row playerId = (Arg.text (formatUint playerId)).bigint.bind fun k => m.row s k := by
  unfold Proxy.row
  rw [hs]
  rfl

/-- What the proxy answers to a query for the player's row. -/
theorem handleMySQLQuery_selectReq {s : m.Store} (hs : p.shard playerId = some s) (closed : Bool)
    (fate : ℕ → RowFate) :
    receiveQueryRes (handleMySQLQuery f (.ok (selectReq playerId))
      (p.queryByUid (.iterates closed fate))) =
      some ⟨true, if closed = false ∧ fate 0 = .scanned then
        ((p.row playerId).map (rowTexts playerId)).toList else []⟩ := by
  have hquery : p.queryByUid (.iterates closed fate) playerId selectProfileSql
      [.text (formatUint playerId)] = .ok
        { columns := profileColumns
          resultSet := ((Arg.text (formatUint playerId)).bigint.bind fun k =>
            (m.row s k).map (encodeRow m.prepared k)).toList
          closed, fate } := by
    unfold Proxy.queryByUid
    simp only [hs, m.query_select]
  rw [row_of_shard p playerId hs]
  unfold handleMySQLQuery selectReq
  simp only [List.map_cons, List.map_nil, hquery, readRows_toList]
  by_cases hshown : closed = false ∧ fate 0 = .scanned
  · rw [if_pos hshown, if_pos hshown, bigint_text_formatUint]
    by_cases hid : playerId.toNat < 2 ^ 63
    · rw [if_pos hid, Option.bind_some, Option.bind_some]
      cases m.row s (Int64.ofInt playerId.toNat) with
      | none => rfl
      | some r =>
        have hrow := marshalRow_encodeRow f m.prepared (toInt_ofNat hid) r
        unfold receiveQueryRes
        simp only [Option.map_some, Option.toList_some, List.mapM_cons, List.mapM_nil, hrow]
        rfl
    · rw [if_neg hid]
      rfl
  · rw [if_neg hshown, if_neg hshown]
    rfl

/-- The row that a call brings. -/
def seen (call : QueryCall) : Option ProfileRow := if call.shows then p.row playerId else none

/-- What Biz gets: a reply with the row that the call brings, or one without a row. -/
theorem queryRes_cases (call : QueryCall) :
    (call.isLost = true ∧ queryRes f p (selectReq playerId) call = none) ∨
      call.isLost = false ∧ ∃ res, queryRes f p (selectReq playerId) call = some res ∧
        match seen p playerId call with
        | some r => res.ok = true ∧ res.rows = [rowTexts playerId r]
        | none => res.ok = false ∨ res.rows = [] := by
  cases call with
  | lost => exact .inl ⟨rfl, rfl⟩
  | refused err => exact .inr ⟨rfl, _, rfl, .inl rfl⟩
  | served fate =>
    right
    refine ⟨rfl, ?_⟩
    cases hs : p.shard playerId with
    | none =>
      -- there is no shard, and no row
      have hrow : seen p playerId (.served fate) = none := by
        unfold seen Proxy.row
        rw [hs]
        split_ifs <;> rfl
      have hquery : p.queryByUid fate playerId selectProfileSql [.text (formatUint playerId)] =
          .error "no shard available" := by
        unfold Proxy.queryByUid
        rw [hs]
      refine ⟨⟨false, []⟩, ?_, ?_⟩
      · unfold queryRes handleMySQLQuery selectReq
        simp only [List.map_cons, List.map_nil, hquery]
        rfl
      · rw [hrow]
        exact .inl rfl
    | some s =>
      cases fate with
      | fails err =>
        have hquery : p.queryByUid (.fails err) playerId selectProfileSql
            [.text (formatUint playerId)] = .error err := by
          unfold Proxy.queryByUid
          rw [hs]
        refine ⟨⟨false, []⟩, ?_, .inl rfl⟩
        unfold queryRes handleMySQLQuery selectReq
        simp only [List.map_cons, List.map_nil, hquery]
        rfl
      | iterates closed fate =>
        refine ⟨_, handleMySQLQuery_selectReq f p playerId hs closed fate, ?_⟩
        have hseen : seen p playerId (.served (.iterates closed fate)) =
            if closed = false ∧ fate 0 = .scanned then p.row playerId else none :=
          if_congr decide_eq_true_iff rfl rfl
        rw [hseen]
        by_cases hshown : closed = false ∧ fate 0 = .scanned
        · rw [if_pos hshown, if_pos hshown]
          cases p.row playerId with
          | none => exact .inr rfl
          | some r => exact ⟨rfl, rfl⟩
        · rw [if_neg hshown, if_neg hshown]
          exact .inr rfl

/-- `QueryPlayerByID` through the proxy: it returns the row that the call brings, and goes on
to the default profile when the reply is without a row. -/
theorem queryPlayerById_eq (env : BizEnv) (call : QueryCall) :
    (queryPlayerById { env with query := queryRes f p (selectReq playerId) call } playerId).2 =
      if call.isLost then none
      else match seen p playerId call with
        | some r => some (r.base playerId)
        | none => env.exec.map fun _ => defaultProfile env playerId := by
  rcases queryRes_cases f p playerId call with ⟨hlost, hres⟩ | ⟨hlost, ⟨ok, rows⟩, hres, hrow⟩
  · rw [hlost, hres]
    rfl
  · rw [hlost, hres, if_neg Bool.false_ne_true]
    cases hseen : seen p playerId call with
    | some r =>
      rw [hseen] at hrow
      rcases hrow with ⟨rfl, rfl⟩
      exact congrArg some (parsePlayerRow_rowTexts playerId r)
    | none =>
      rw [hseen] at hrow
      rcases hrow with rfl | rfl
      · rfl
      · cases ok <;> rfl

end Query

/-! ## What a statement leaves -/

section Exec

variable {m : MySQL} {p : Proxy m} {req : MySQLReq} {call : ExecCall}

/-- A reply that says that it is right comes from a statement that ran. -/
theorem ran_of_ok (hok : (execRes p req call).1 = some true) :
    ∃ s s' ids, p.shard req.uid = some s ∧
      m.exec s req.sql (req.args.map bindArg) = .ok (s', ids) ∧
      (execRes p req call).2.shard req.uid = some s' := by
  have hran : ∃ p' ids, p.execByUid req.uid req.sql (req.args.map bindArg) = .ok (p', ids) ∧
      (execRes p req call).2 = p' := by
    unfold execRes at hok ⊢
    rcases call with ⟨_ | _, _ | err⟩ | _
    · cases hok
    · cases hok
    · cases hok
    · cases hok
    · cases hexec : p.execByUid req.uid req.sql (req.args.map bindArg) with
      | error err =>
        rw [hexec] at hok
        cases hok
      | ok done =>
        rcases done with ⟨p', ids⟩
        exact ⟨p', ids, rfl, rfl⟩
  rcases hran with ⟨p', ids, hexec, hafter⟩
  rw [hafter]
  unfold Proxy.execByUid at hexec
  cases hs : p.shard req.uid with
  | none =>
    rw [hs] at hexec
    cases hexec
  | some s =>
    rw [hs] at hexec
    cases hdone : m.exec s req.sql (req.args.map bindArg) with
    | error err =>
      simp only [hdone] at hexec
      cases hexec
    | ok done =>
      rcases done with ⟨s', ids'⟩
      simp only [hdone] at hexec
      cases hexec
      refine ⟨s, s', ids', rfl, hdone, ?_⟩
      have hlt := (List.getElem?_eq_some_iff.mp hs).1
      unfold Proxy.shard
      rw [List.length_set, List.getElem?_set_self hlt]

end Exec

/-! ## A table in memory -/

/-- An update of the row with a key, if there is one. -/
def updateTable (s : Int64 → Option ProfileRow) (id : Arg) (nickname : Option Arg)
    (coin diamond : Arg) : Except String ((Int64 → Option ProfileRow) × Int64 × Int64) :=
  match id.bigint with
  | none => .ok (s, 0, 0)
  | some k =>
    match s k, coin.bigint, diamond.bigint with
    | none, _, _ => .ok (s, 0, 0)
    | some r, some coin, some diamond =>
      .ok (Function.update s k (some { r with
        nickname := (nickname.map Arg.varchar).getD r.nickname, coin, diamond }), 0, 1)
    | some _, _, _ => .error "Error 1264: Out of range value"

/-- An insertion of a row, which a row with the key prevents. -/
def insertTable (s : Int64 → Option ProfileRow) (ignored : Bool) (id nickname : Arg) :
    Except String ((Int64 → Option ProfileRow) × Int64 × Int64) :=
  match id.bigint with
  | none => .error "Error 1264: Out of range value"
  | some k =>
    if (s k).isNone then .ok (Function.update s k (some { nickname := nickname.varchar }), 0, 1)
    else if ignored then .ok (s, 0, 0)
    else .error "Error 1062: Duplicate entry"

section Table

variable {s s' : Int64 → Option ProfileRow} {id coin diamond : Arg} {ids : Int64 × Int64}

theorem of_insertTable {nickname : Arg} (h : insertTable s false id nickname = .ok (s', ids)) :
    ∃ k r, id.bigint = some k ∧ s' k = some r ∧ r.nickname = nickname.varchar ∧ r.coin = 0 ∧
      r.diamond = 0 := by
  unfold insertTable at h
  cases hid : id.bigint with
  | none =>
    rw [hid] at h
    cases h
  | some k =>
    simp only [hid] at h
    split_ifs at h
    · cases h
      exact ⟨k, _, rfl, Function.update_self .., rfl, rfl, rfl⟩
    all_goals contradiction

theorem of_updateTable {nickname : Option Arg} {k : Int64}
    (h : updateTable s id nickname coin diamond = .ok (s', ids)) (hid : id.bigint = some k) :
    (s k = none → s' k = none) ∧
      ∀ r, s k = some r → ∃ r', s' k = some r' ∧
        r'.nickname = (nickname.map Arg.varchar).getD r.nickname ∧
        (∀ z, coin.bigint = some z → r'.coin = z) ∧
        ∀ z, diamond.bigint = some z → r'.diamond = z := by
  unfold updateTable at h
  simp only [hid] at h
  cases hrow : s k with
  | none =>
    simp only [hrow] at h
    cases h
    refine ⟨fun _ => hrow, fun r hr => ?_⟩
    cases hr
  | some r =>
    refine ⟨fun hnone => (by cases hnone), ?_⟩
    rintro _ ⟨⟩
    cases hcoin : coin.bigint with
    | none =>
      simp only [hrow, hcoin] at h
      cases h
    | some c =>
      cases hdiamond : diamond.bigint with
      | none =>
        simp only [hrow, hcoin, hdiamond] at h
        cases h
      | some d =>
        simp only [hrow, hcoin, hdiamond] at h
        cases h
        refine ⟨_, Function.update_self .., rfl, ?_, ?_⟩
        · rintro _ ⟨⟩
          rfl
        · rintro _ ⟨⟩
          rfl

end Table

/-- `player_profiles` as a function. -/
def tableDb : MySQL where
  Store := Int64 → Option ProfileRow
  row s k := s k
  prepared := true
  query s sql args :=
    match args with
    | [id] =>
      if sql = selectProfileSql then
        (profileColumns, (id.bigint.bind fun k => (s k).map (encodeRow true k)).toList)
      else ([], [])
    | _ => ([], [])
  exec s sql args :=
    match args with
    | [id, nickname, createAt, loginAt] =>
      if sql = insertPlayerSql then insertTable s false id nickname
      else if sql = insertProfileSql then insertTable s true id nickname
      -- an update that leaves the nickname: coin, diamond, login_at and the key
      else updateTable s loginAt none id nickname
    | [nickname, coin, diamond, _, id] => updateTable s id (some nickname) coin diamond
    | _ => .error "Error 1064: You have an error in your SQL syntax"
  exec_insert := by
    intro s s' id nickname createAt loginAt ids h
    simp only [if_true] at h
    exact of_insertTable h
  exec_update := by
    intro s s' id coin diamond loginAt nickname ids k h hid
    have hinsert : updateProfileSql (updateParts false) ≠ insertPlayerSql := by decide +kernel
    have hignore : updateProfileSql (updateParts false) ≠ insertProfileSql := by decide +kernel
    cases nickname with
    | none =>
      simp only [Option.isSome_none, Option.toList_none, List.nil_append, List.cons_append] at h
      rw [if_neg hinsert, if_neg hignore] at h
      exact of_updateTable h hid
    | some nickname =>
      simp only [Option.toList_some, List.nil_append, List.cons_append] at h
      exact of_updateTable h hid
  query_select := fun s id => if_pos rfl

end Gmaker.Dbproxy
