import Gmaker.Dbproxy.Profiles

/-!
# Gmaker.Dbproxy.PlayerData — what becomes of a player's data

Two results about Biz on top of the proxy. What `CreatePlayer` or `UpdatePlayer` wrote is
what `QueryPlayerByID` reads (`write_survives_iff`), unless the nickname reads as a number
that is not in its shortest form, which the proxy binds as the number. And a player with a
row is not taken for a new one (`keepsStored_iff`) when the query brings the row, or a call
fails for good: every reply without a row leads to the default profile.
-/

namespace Gmaker.Dbproxy

open Gmaker.Lib Gmaker.Biz

/-! ## Writing and reading back -/

/-- A write of a profile. -/
inductive Write where
  | create (nickname : String)
  | update (nickname : String) (coin diamond : UInt64)
deriving DecidableEq

namespace Write

/-- The request. -/
def req (env : BizEnv) (playerId : UInt64) : Write → MySQLReq
  | create nickname => createPlayerReq env playerId nickname
  | update nickname coin diamond => updatePlayerReq env playerId nickname coin diamond

/-- Whether `CreatePlayer` or `UpdatePlayer` succeeds. -/
def succeeds (env : BizEnv) (playerId : UInt64) : Write → Bool
  | create nickname => (createPlayer env playerId nickname).2.isSome
  | update nickname coin diamond => (updatePlayer env playerId nickname coin diamond).2

/-- Nickname, coins and diamonds as they are to be read. -/
def data (playerId : UInt64) : Write → String × UInt64 × UInt64
  | create nickname => (createdNickname playerId nickname, 0, 0)
  | update nickname coin diamond => (nickname, coin, diamond)

/-- The numbers are below 2^63. -/
def Fits : Write → Prop
  | create _ => True
  | update _ coin diamond => coin.toNat < 2 ^ 63 ∧ diamond.toNat < 2 ^ 63

instance : DecidablePred Fits
  | create _ => inferInstanceAs (Decidable True)
  | update .. => inferInstanceAs (Decidable (_ ∧ _))

/-- There is a row for what is written. -/
def Lands {m : MySQL} (p : Proxy m) (playerId : UInt64) : Write → Prop
  | create _ => True
  | update .. => (p.row playerId).isSome = true

/-- An update without a nickname leaves the one that is there. -/
def LeavesName {m : MySQL} (p : Proxy m) (playerId : UInt64) : Write → Prop
  | create _ => True
  | update nickname .. => nickname = "" → ∀ r ∈ p.row playerId, r.nickname = ""

end Write

/-- Nickname, coins and diamonds. -/
def playerData (player : PlayerBase) : String × UInt64 × UInt64 :=
  (player.nickname, player.coin, player.diamond)

/-- A text that the proxy binds as a number and that the number is not written as. -/
def Retyped (s : String) : Prop := (parseInt 64 s).2 = true ∧ shortestForm s.toList = false

instance (s : String) : Decidable (Retyped s) := inferInstanceAs (Decidable (_ ∧ _))

/-- A `VARCHAR` column has the text unless it is retyped. -/
theorem varchar_bindArg_iff (s : String) : (bindArg s).varchar = s ↔ ¬ Retyped s := by
  unfold Retyped bindArg
  rcases hread : parseInt 64 s with ⟨z, _ | _⟩
  · simp only [Bool.false_eq_true, false_and, not_false_eq_true, iff_true]
    rfl
  · have hbounds := parseInt_bounds 64 s
    rw [hread] at hbounds
    have hsigned : parseSigned s.toList = some z := by
      unfold parseInt at hread
      split at hread
      · cases hread
      · split_ifs at hread
        · exact absurd (congrArg Prod.snd hread) Bool.false_ne_true
        · exact absurd (congrArg Prod.snd hread) Bool.false_ne_true
        · cases hread
          assumption
    change (Int64.ofInt z).toInt.repr = s ↔ _
    rw [Int64.toInt_ofInt_of_le hbounds.1 hbounds.2, repr_eq_iff hsigned]
    simp

section Survives

variable {m : MySQL} {p : Proxy m} {env : BizEnv} {playerId : UInt64} {call : ExecCall}

theorem row_after {s : m.Store} {k : Int64} {p' : Proxy m} (hs : p'.shard playerId = some s)
    (hk : (Arg.text (formatUint playerId)).bigint = some k) : p'.row playerId = m.row s k := by
  rw [row_of_shard p' playerId hs, hk]
  rfl

/-- The row of a created player. -/
theorem row_of_create {nickname : String}
    (hok : (execRes p (createPlayerReq env playerId nickname) call).1 = some true) :
    ∃ r, (execRes p (createPlayerReq env playerId nickname) call).2.row playerId = some r ∧
      r.nickname = (bindArg (createdNickname playerId nickname)).varchar ∧ r.coin = 0 ∧
      r.diamond = 0 := by
  rcases ran_of_ok hok with ⟨s, s', ids, -, hexec, hafter⟩
  rcases m.exec_insert hexec with ⟨k, r, hk, hrow, hnickname, hcoin, hdiamond⟩
  rw [bigint_bindArg] at hk
  exact ⟨r, (row_after hafter hk).trans hrow, hnickname, hcoin, hdiamond⟩

/-- The row of a player that is updated, if there is one. -/
theorem row_of_update {nickname : String} {coin diamond : UInt64} (hcoin : coin.toNat < 2 ^ 63)
    (hdiamond : diamond.toNat < 2 ^ 63)
    (hok : (execRes p (updatePlayerReq env playerId nickname coin diamond) call).1 = some true) :
    let p' := (execRes p (updatePlayerReq env playerId nickname coin diamond) call).2
    (p.row playerId = none → p'.row playerId = none) ∧
      ∀ r, p.row playerId = some r → ∃ r', p'.row playerId = some r' ∧
        r'.nickname = (if nickname ≠ "" then (bindArg nickname).varchar else r.nickname) ∧
        r'.coin = Int64.ofInt coin.toNat ∧ r'.diamond = Int64.ofInt diamond.toNat := by
  intro p'
  rcases ran_of_ok hok with ⟨s, s', ids, hs, hexec, hafter⟩
  cases hk : (Arg.text (formatUint playerId)).bigint with
  | none =>
    -- a number that no row can have
    have hnone : ∀ q : Proxy m, q.row playerId = none := by
      intro q
      unfold Proxy.row
      rw [hk]
      exact Option.bind_fun_none _
    refine ⟨fun _ => hnone p', fun r hr => ?_⟩
    rw [hnone p] at hr
    cases hr
  | some k =>
    have hstatement : ∃ name : Option Arg,
        name.map Arg.varchar = (if nickname ≠ "" then some (bindArg nickname).varchar else none) ∧
        (updatePlayerReq env playerId nickname coin diamond).sql =
          updateProfileSql (updateParts name.isSome) ∧
        (updatePlayerReq env playerId nickname coin diamond).args.map bindArg =
          name.toList ++ [bindArg (formatUint coin), bindArg (formatUint diamond),
            bindArg (formatUint env.now)] ++ [bindArg (formatUint playerId)] := by
      unfold updatePlayerReq
      by_cases hname : nickname = ""
      · refine ⟨none, ?_⟩
        simp only [hname, ne_eq, not_true_eq_false, if_false]
        exact ⟨rfl, rfl, rfl⟩
      · refine ⟨some (bindArg nickname), ?_⟩
        simp only [ne_eq, hname, not_false_eq_true, if_true]
        exact ⟨rfl, rfl, rfl⟩
    rcases hstatement with ⟨name, hname, hsql, hargs⟩
    rw [hsql, hargs] at hexec
    have hid : (bindArg (formatUint playerId)).bigint = some k := (bigint_bindArg playerId).trans hk
    rcases m.exec_update hexec hid with ⟨hmissing, hfound⟩
    have hrow : p.row playerId = m.row s k := row_after hs hk
    have hrow' : p'.row playerId = m.row s' k := row_after hafter hk
    rw [hrow, hrow']
    refine ⟨hmissing, fun r hr => ?_⟩
    rcases hfound r hr with ⟨r', hr', hnickname, hcoin', hdiamond'⟩
    refine ⟨r', hr', ?_, ?_, ?_⟩
    · rw [hnickname, hname]
      split_ifs <;> rfl
    · rw [bindArg_formatUint hcoin] at hcoin'
      exact hcoin' _ rfl
    · rw [bindArg_formatUint hdiamond] at hdiamond'
      exact hdiamond' _ rfl

/-- A number below 2^63 comes back from its column. -/
theorem unsigned_ofNat {n : UInt64} (hn : n.toNat < 2 ^ 63) :
    unsigned (Int64.ofInt n.toNat).toInt = n := by
  rw [toInt_ofNat hn, unsigned, Int.toNat_natCast]
  exact UInt64.ofNat_toNat

/-- What is in the table after a write that succeeds. -/
theorem data_after {w : Write} (hfits : w.Fits)
    (hok : w.succeeds { env with exec := (execRes p (w.req env playerId) call).1 } playerId = true) :
    let p' := (execRes p (w.req env playerId) call).2
    (¬ w.Lands p playerId ∧ p'.row playerId = none) ∨
      w.Lands p playerId ∧ ∃ r', p'.row playerId = some r' ∧
        (playerData (r'.base playerId) = w.data playerId ↔
          w.LeavesName p playerId ∧ ¬ Retyped (w.data playerId).1) := by
  intro p'
  cases w with
  | create nickname =>
    have hexec : (execRes p (createPlayerReq env playerId nickname) call).1 = some true := by
      by_contra hno
      have hanswer : (createPlayer
          { env with exec := (execRes p (createPlayerReq env playerId nickname) call).1 } playerId
          nickname).2 = none := if_neg hno
      rw [Write.succeeds, Write.req, hanswer] at hok
      cases hok
    rcases row_of_create hexec with ⟨r, hr, hnickname, hcoin, hdiamond⟩
    refine .inr ⟨trivial, r, hr, ?_⟩
    have hdata : playerData (r.base playerId) =
        ((bindArg (createdNickname playerId nickname)).varchar, 0, 0) := by
      unfold playerData ProfileRow.base
      dsimp only
      rw [hnickname, hcoin, hdiamond]
      rfl
    rw [hdata, ← varchar_bindArg_iff]
    constructor
    · intro heq
      exact ⟨trivial, congrArg Prod.fst heq⟩
    · rintro ⟨-, heq⟩
      exact congrArg (·, 0, 0) heq
  | update nickname coin diamond =>
    rcases hfits with ⟨hcoin, hdiamond⟩
    have hexec : (execRes p (updatePlayerReq env playerId nickname coin diamond) call).1 =
        some true := of_decide_eq_true hok
    rcases row_of_update hcoin hdiamond hexec with ⟨hmissing, hfound⟩
    cases hrow : p.row playerId with
    | none =>
      refine .inl ⟨?_, hmissing hrow⟩
      intro hlands
      rw [Write.Lands, hrow] at hlands
      cases hlands
    | some r =>
      rcases hfound r hrow with ⟨r', hr', hnickname, hcoin', hdiamond'⟩
      refine .inr ⟨by rw [Write.Lands, hrow]; rfl, r', hr', ?_⟩
      have hdata : playerData (r'.base playerId) =
          (if nickname ≠ "" then (bindArg nickname).varchar else r.nickname, coin, diamond) := by
        unfold playerData ProfileRow.base
        dsimp only
        rw [hnickname, hcoin', hdiamond', unsigned_ofNat hcoin, unsigned_ofNat hdiamond]
      have hleaves : (Write.update nickname coin diamond).LeavesName p playerId ↔
          (nickname = "" → r.nickname = "") := by
        unfold Write.LeavesName
        rw [hrow]
        simp only [Option.mem_def, Option.some.injEq, forall_eq']
      rw [hdata, hleaves, ← varchar_bindArg_iff]
      have hpair : ∀ name : String, ((name, coin, diamond) = (nickname, coin, diamond) ↔
          name = nickname) := by
        intro name
        constructor
        · exact fun heq => congrArg Prod.fst heq
        · exact fun heq => congrArg (·, coin, diamond) heq
      change (_, coin, diamond) = (nickname, coin, diamond) ↔ _
      rw [hpair]
      by_cases hname : nickname = ""
      · subst hname
        simp only [ne_eq, not_true_eq_false, if_false, forall_const]
        constructor
        · exact fun heq => ⟨heq, rfl⟩
        · exact fun heq => heq.1
      · rw [if_pos hname]
        constructor
        · exact fun heq => ⟨fun h => absurd h hname, heq⟩
        · exact fun heq => heq.2

end Survives

/-- A write that succeeds is read back as it was, or the reading fails, if and only if one of
these holds:
the call of the query is lost; it brings the row, which there was for an update, and the
nickname is not retyped or left out; or it brings no row, and the default profile has what
was written or cannot be inserted. -/
theorem write_survives_iff {m : MySQL} (p : Proxy m) (env : BizEnv) (playerId : UInt64)
    (w : Write) (call : ExecCall) (hfits : w.Fits)
    (hok : w.succeeds { env with exec := (execRes p (w.req env playerId) call).1 } playerId = true)
    (f : Formats) (readEnv : BizEnv) (query : QueryCall) :
    let p' := (execRes p (w.req env playerId) call).2
    (∀ player, (queryPlayerById
        { readEnv with query := queryRes f p' (selectReq playerId) query } playerId).2 = some player →
      playerData player = w.data playerId) ↔
    query.isLost = true ∨
      (query.shows = true ∧ w.Lands p playerId ∧ w.LeavesName p playerId ∧
        ¬ Retyped (w.data playerId).1) ∨
      ¬ (query.shows = true ∧ w.Lands p playerId) ∧
        (readEnv.exec = none ∨ playerData (defaultProfile readEnv playerId) = w.data playerId) := by
  intro p'
  rw [queryPlayerById_eq]
  cases hlost : query.isLost with
  | true => simp
  | false =>
    rw [if_neg Bool.false_ne_true]
    unfold seen
    have hdefault : (∀ player, (readEnv.exec.map fun _ => defaultProfile readEnv playerId) =
        some player → playerData player = w.data playerId) ↔
        (readEnv.exec = none ∨ playerData (defaultProfile readEnv playerId) = w.data playerId) := by
      cases readEnv.exec with
      | none => simp
      | some ok => simp
    cases hshows : query.shows with
    | false =>
      rw [if_neg Bool.false_ne_true]
      simp only [Bool.false_eq_true, false_and, not_false_eq_true, true_and, false_or]
      exact hdefault
    | true =>
      rw [if_pos rfl]
      rcases data_after hfits hok with ⟨hlands, hrow⟩ | ⟨hlands, r', hrow, hdata⟩
      · rw [hrow]
        simp only [hlands, Bool.false_eq_true, false_and, and_false, not_false_eq_true, true_and,
          false_or]
        exact hdefault
      · rw [hrow]
        simp only [hlands, Option.some.injEq, forall_eq', Bool.false_eq_true, true_and,
          not_true_eq_false, false_and, or_false, false_or]
        exact hdata

/-- A shard with one player. -/
def bobShard : Proxy tableDb := ⟨[fun k => if k = 1 then some { nickname := "Bob" } else none]⟩

/-- A query whose row is read. -/
def calmQuery : QueryCall := .served (.iterates false fun _ => .scanned)

def plainFormats : Formats := ⟨fun _ => "", fun _ => ""⟩

/-- A new name that is no number is read back. -/
theorem rename_survives :
    let p' := (execRes bobShard ((Write.update "Rob" 5 0).req {} 1) .served).2
    ∀ player, (queryPlayerById
        { query := queryRes plainFormats p' (selectReq 1) calmQuery } 1).2 = some player →
      playerData player = ("Rob", 5, 0) :=
  (write_survives_iff bobShard {} 1 (.update "Rob" 5 0) .served (by decide) (by decide)
    plainFormats {} calmQuery).mpr
    (.inr (.inl ⟨rfl, show (bobShard.row 1).isSome = true by decide,
      fun h => absurd h (by decide), by decide⟩))

/-- The name 007 is read back as 7. -/
theorem agent_not_survives :
    ¬ ∀ (m : MySQL) (p : Proxy m) (env : BizEnv) (playerId : UInt64) (w : Write) (call : ExecCall),
      w.Fits →
      w.succeeds { env with exec := (execRes p (w.req env playerId) call).1 } playerId = true →
      ∀ (f : Formats) (readEnv : BizEnv) (query : QueryCall) (player : PlayerBase),
        (queryPlayerById { readEnv with
          query := queryRes f (execRes p (w.req env playerId) call).2 (selectReq playerId) query }
            playerId).2 = some player →
        playerData player = w.data playerId := by
  intro h
  have hread := h tableDb bobShard {} 1 (.update "007" 5 0) .served (by decide) (by decide)
    plainFormats {} calmQuery
  rw [queryPlayerById_eq] at hread
  have hdata := hread
    { playerId := 1, nickname := "7", level := 1, exp := 0, coin := 5, diamond := 0, createAt := 0,
      loginAt := 0 } (by decide)
  exact absurd hdata (by decide)

/-! ## Players that are there -/

section Stored

variable {m : MySQL} (f : Formats) (p p' : Proxy m) (env : BizEnv) (playerId : UInt64)
  (query : QueryCall) (exec : ExecCall)

/-- `QueryPlayerByID`: its query meets the shards `p`, and its `INSERT IGNORE` the shards `p'`,
which others may have written to in between. -/
def queryPlayer : Option PlayerBase :=
  (queryPlayerById { env with
    query := queryRes f p (selectReq playerId) query
    exec := (execRes p' (initDefaultProfile env playerId) exec).1 } playerId).2

/-- The player's row, at the query or at the `INSERT IGNORE`. -/
def storedRow : Option ProfileRow := (p.row playerId).or (p'.row playerId)

/-- A player with a row gets its data, or an error. -/
def KeepsStored : Prop :=
  ∀ r, storedRow p p' playerId = some r →
    queryPlayer f p p' env playerId query exec = none ∨
      queryPlayer f p p' env playerId query exec = some (r.base playerId)

/-- The call is answered, if only by an error. -/
def ExecCall.isAnswered : ExecCall → Bool
  | .fails _ err => err.isSome
  | .served => true

theorem isSome_execRes {q : Proxy m} (req : MySQLReq) :
    (execRes q req exec).1.isSome = exec.isAnswered := by
  rcases exec with ⟨_ | _, _ | err⟩ | _ <;> rfl

/-- A player with a row gets its data or an error if and only if the call of the query is lost
or brings the row, or that of the `INSERT IGNORE` is lost, or the row is no other than the
default profile. -/
theorem keepsStored_iff :
    KeepsStored f p p' env playerId query exec ↔
      query.isLost = true ∨ (query.shows = true ∧ (p.row playerId).isSome = true) ∨
        exec.isAnswered = false ∨
        ∀ r ∈ storedRow p p' playerId, r.base playerId = defaultProfile env playerId := by
  have hplayer := queryPlayerById_eq f p playerId
    { env with exec := (execRes p' (initDefaultProfile env playerId) exec).1 } query
  unfold KeepsStored queryPlayer
  simp only at hplayer ⊢
  rw [hplayer]
  cases hlost : query.isLost with
  | true => simp
  | false =>
    rw [if_neg Bool.false_ne_true]
    by_cases hseen : query.shows = true ∧ (p.row playerId).isSome = true
    · -- the row is brought
      rcases hseen with ⟨hshows, hsome⟩
      rcases Option.isSome_iff_exists.mp hsome with ⟨r, hr⟩
      have hstored : storedRow p p' playerId = some r := by
        unfold storedRow
        rw [hr]
        rfl
      unfold seen
      rw [hstored, if_pos hshows, hr]
      simp [hshows]
    · have hnone : seen p playerId query = none := by
        unfold seen
        split_ifs with hshows
        · exact Option.not_isSome_iff_eq_none.mp fun hsome => hseen ⟨hshows, hsome⟩
        · rfl
      have hanswered := isSome_execRes exec (q := p') (initDefaultProfile env playerId)
      rw [hnone]
      simp only [hseen, Bool.false_eq_true, false_or]
      cases hres : (execRes p' (initDefaultProfile env playerId) exec).1 with
      | none =>
        rw [hres] at hanswered
        simp [← hanswered]
      | some ok =>
        rw [hres] at hanswered
        simp only [← hanswered, Option.isSome_some, Option.map_some, reduceCtorEq, false_or,
          Bool.true_eq_false, Option.some.injEq, Option.mem_def]
        constructor
        · intro h r hr
          exact (h r hr).symm
        · intro h r hr
          exact (h r hr).symm

end Stored

/-- A player whose query meets a busy proxy is given the default profile. -/
theorem busyProxy_not_keepsStored :
    ¬ ∀ (m : MySQL) (f : Formats) (p p' : Proxy m) (env : BizEnv) (playerId : UInt64)
      (query : QueryCall) (exec : ExecCall), KeepsStored f p p' env playerId query exec := by
  intro h
  have hkept := h tableDb plainFormats bobShard bobShard {} 1 (.refused "server busy") .served
    { nickname := "Bob" } (by decide)
  revert hkept
  decide

end Gmaker.Dbproxy
