import Gmaker.Biz.PlayerService
import Gmaker.Lib.Decimal

/-!
# Gmaker.Dbproxy.Server — the database proxy

DBProxy runs the statements of the other services and sends back texts. A query gives an
iterator over the rows of its result set. It may end before the last row, because the
connection breaks or the time is up, and the reading of a single row may fail. The handler
does not ask why the iterator ended and passes over what it cannot read, so that a reply is
complete if and only if neither happens (`query_exact`).
-/

namespace Gmaker.Dbproxy

open Gmaker.Lib Gmaker.Biz

/-! ## Values -/

/-- A value of a row as the driver gives it. Texts are byte strings, which need not be UTF-8. -/
inductive SqlValue where
  | bytes (v : ByteArray)
  | string (v : ByteArray)
  | int64 (v : Int64)
  /-- a `float64`, by its bits -/
  | float64 (v : UInt64)
  | bool (v : Bool)
  /-- a `time.Time`, in seconds -/
  | time (v : ℤ)
  | nil
  /-- a `uint64`, which has no case of its own -/
  | uint64 (v : UInt64)
deriving DecidableEq

/-- How the standard library writes what is not written in one way only. -/
structure Formats where
  /-- `strconv.FormatFloat(v, 'f', -1, 64)` -/
  formatFloat : UInt64 → String
  /-- `v.Format(time.RFC3339)` -/
  rfc3339 : ℤ → String

/-- The text of a value, `valStr`. -/
def valStr (f : Formats) : SqlValue → ByteArray
  | .bytes v => v
  | .string v => v
  | .int64 v => v.toInt.repr.toByteArray
  | .float64 v => (f.formatFloat v).toByteArray
  | .bool v => (if v then "true" else "false").toByteArray
  | .time v => (f.rfc3339 v).toByteArray
  | .nil => "".toByteArray
  | .uint64 v => v.toNat.repr.toByteArray

/-! ## Result sets -/

/-- How it goes with a row of a result set. -/
inductive RowFate where
  | scanned
  /-- `rows.Scan` fails -/
  | unreadable
  /-- `rows.Next` says that there is nothing more: the connection has broken, or the time is
  up. `rows.Err` would tell -/
  | broken
deriving DecidableEq

/-- What `QueryByUID` gives. -/
structure Rows where
  columns : List String
  resultSet : List (List SqlValue)
  /-- the time is up before `rows.Columns`, which fails then -/
  closed : Bool := false
  fate : ℕ → RowFate := fun _ => .scanned

/-- `pb.MySQLRow`, before it is marshalled. -/
abbrev RawRow := List (String × ByteArray)

/-- The columns of a row. -/
def rowCols (f : Formats) (cols : List String) (vals : List SqlValue) : RawRow :=
  cols.zip (vals.map (valStr f))

/-- The loop over `rows.Next`, from the row `i` on. -/
def readRows (f : Formats) (cols : List String) (fate : ℕ → RowFate) :
    ℕ → List (List SqlValue) → List RawRow
  | _, [] => []
  | i, vals :: rest =>
    match fate i with
    | .broken => []
    | .unreadable => readRows f cols fate (i + 1) rest
    | .scanned => rowCols f cols vals :: readRows f cols fate (i + 1) rest

/-- The rows of the result set, all of them and in order. -/
def Rows.whole (f : Formats) (rows : Rows) : List RawRow :=
  rows.resultSet.map (rowCols f rows.columns)

/-! ## Replies -/

/-- What `sendProto` is given. An error goes out as a `pb.MySQLExecRes`. -/
inductive DbReply where
  | query (ok : Bool) (error : String) (rows : List RawRow)
  | exec (ok : Bool) (error : String) (lastInsertId rowsAffected : Int64)

namespace DbReply

def ok : DbReply → Bool
  | query ok .. => ok
  | exec ok .. => ok

def rows : DbReply → List RawRow
  | query _ _ rows => rows
  | exec .. => []

end DbReply

/-- `sendError`. -/
def sendError (err : String) : DbReply := .exec false err 0 0

/-- `OnData`, when the queue of the workers is full. -/
def busy : DbReply := sendError "server busy"

/-! ## The handlers -/

/-- What is bound to a `?`. -/
inductive Arg where
  | int (n : Int64)
  | text (s : String)
deriving DecidableEq

/-- An argument of `handleMySQLExec`: what reads as a number is bound as one. -/
def bindArg (a : String) : Arg :=
  match parseInt 64 a with
  | (n, true) => .int (Int64.ofInt n)
  | (_, false) => .text a

/-- `handleMySQLQuery`, of what `proto.Unmarshal` makes of the payload. -/
def handleMySQLQuery (f : Formats) (req : Except String MySQLReq)
    (queryByUid : UInt64 → String → List Arg → Except String Rows) : DbReply :=
  match req with
  | .error err => sendError err
  | .ok req =>
    match queryByUid req.uid req.sql (req.args.map .text) with
    | .error err => .query false err []
    | .ok rows =>
      .query true "" (if rows.closed then [] else readRows f rows.columns rows.fate 0 rows.resultSet)

/-- `handleMySQLExec`. -/
def handleMySQLExec (req : Except String MySQLReq)
    (execByUid : UInt64 → String → List Arg → Except String (Int64 × Int64)) : DbReply :=
  match req with
  | .error err => sendError err
  | .ok req =>
    match execByUid req.uid req.sql (req.args.map bindArg) with
    | .error err => .exec false err 0 0
    | .ok (lastInsertId, rowsAffected) => .exec true "" lastInsertId rowsAffected

/-! ## Complete replies -/

/-- What is said to be right has the rows of the result set, all of them and in order. -/
def Complete (f : Formats) (req : Except String MySQLReq)
    (queryByUid : UInt64 → String → List Arg → Except String Rows) : Prop :=
  (handleMySQLQuery f req queryByUid).ok = true →
    ∃ r rows, req = .ok r ∧ queryByUid r.uid r.sql (r.args.map .text) = .ok rows ∧
      (handleMySQLQuery f req queryByUid).rows = rows.whole f

/-- The iteration gets to the end, and reads every row. -/
def Rows.Undisturbed (rows : Rows) : Prop :=
  rows.resultSet = [] ∨ rows.closed = false ∧ ∀ i < rows.resultSet.length, rows.fate i = .scanned

section ReadRows

variable {f : Formats} {cols : List String} {fate : ℕ → RowFate}

theorem length_readRows_le (i : ℕ) (l : List (List SqlValue)) :
    (readRows f cols fate i l).length ≤ l.length := by
  induction l generalizing i with
  | nil => exact le_rfl
  | cons vals rest ih =>
    unfold readRows
    cases fate i with
    | broken => exact Nat.zero_le _
    | unreadable => exact (ih (i + 1)).trans (Nat.le_succ _)
    | scanned => exact Nat.succ_le_succ (ih (i + 1))

theorem readRows_of_scanned {i : ℕ} {l : List (List SqlValue)}
    (h : ∀ j < l.length, fate (i + j) = .scanned) :
    readRows f cols fate i l = l.map (rowCols f cols) := by
  induction l generalizing i with
  | nil => rfl
  | cons vals rest ih =>
    have hhead : fate i = .scanned := h 0 (Nat.succ_pos _)
    have htail : ∀ j < rest.length, fate (i + 1 + j) = .scanned := by
      intro j hj
      rw [Nat.add_assoc, Nat.add_comm 1 j]
      exact h (j + 1) (Nat.succ_lt_succ hj)
    rw [readRows, hhead]
    exact congrArg (rowCols f cols vals :: ·) (ih htail)

/-- A row that is missing makes the reply shorter. -/
theorem scanned_of_length {i : ℕ} {l : List (List SqlValue)}
    (h : (readRows f cols fate i l).length = l.length) :
    ∀ j < l.length, fate (i + j) = .scanned := by
  induction l generalizing i with
  | nil =>
    intro j hj
    exact absurd hj (Nat.not_lt_zero j)
  | cons vals rest ih =>
    have hle : (readRows f cols fate (i + 1) rest).length ≤ rest.length :=
      length_readRows_le (i + 1) rest
    unfold readRows at h
    cases hfate : fate i with
    | broken =>
      rw [hfate] at h
      exact absurd h (Nat.succ_ne_zero _).symm
    | unreadable =>
      simp only [hfate, List.length_cons] at h
      omega
    | scanned =>
      simp only [hfate, List.length_cons, Nat.add_right_cancel_iff] at h
      intro j hj
      cases j with
      | zero => exact hfate
      | succ j =>
        have hrest := ih h j (Nat.lt_of_succ_lt_succ hj)
        rwa [Nat.add_assoc, Nat.add_comm 1 j] at hrest

end ReadRows

/-- What is read is the whole result set exactly when nothing disturbs the iteration. -/
theorem read_eq_whole_iff (f : Formats) (rows : Rows) :
    (if rows.closed then [] else readRows f rows.columns rows.fate 0 rows.resultSet) =
      rows.whole f ↔ rows.Undisturbed := by
  unfold Rows.whole Rows.Undisturbed
  constructor
  · intro h
    cases hclosed : rows.closed with
    | true =>
      rw [hclosed] at h
      exact .inl (List.map_eq_nil_iff.mp h.symm)
    | false =>
      rw [hclosed] at h
      have hlen := congrArg List.length h
      rw [if_neg Bool.false_ne_true, List.length_map] at hlen
      right
      refine ⟨rfl, fun i hi => ?_⟩
      have hscanned := scanned_of_length hlen i hi
      rwa [Nat.zero_add] at hscanned
  · rintro (hempty | ⟨hclosed, hscanned⟩)
    · rw [hempty]
      split_ifs <;> rfl
    · rw [hclosed, if_neg Bool.false_ne_true]
      apply readRows_of_scanned
      intro j hj
      rw [Nat.zero_add]
      exact hscanned j hj

/-- A reply is complete, or says that it is not, if and only if the query fails or its
iteration is not disturbed. -/
theorem query_exact (f : Formats) (req : Except String MySQLReq)
    (queryByUid : UInt64 → String → List Arg → Except String Rows) :
    Complete f req queryByUid ↔
      ∀ r rows, req = .ok r → queryByUid r.uid r.sql (r.args.map .text) = .ok rows →
        rows.Undisturbed := by
  unfold Complete handleMySQLQuery
  cases req with
  | error err =>
    constructor
    · intro _ r rows hr
      cases hr
    · intro _ hok
      cases hok
  | ok r =>
    cases hquery : queryByUid r.uid r.sql (r.args.map .text) with
    | error err =>
      simp only [hquery]
      constructor
      · rintro _ _ rows ⟨⟩ hrows
        rw [hquery] at hrows
        cases hrows
      · intro _ hok
        cases hok
    | ok rows =>
      simp only [hquery, DbReply.rows]
      constructor
      · rintro hcomplete _ rows' ⟨⟩ hrows
        rcases hcomplete rfl with ⟨_, rows'', ⟨⟩, hrows'', hread⟩
        rw [hquery] at hrows hrows''
        cases hrows
        cases hrows''
        exact (read_eq_whole_iff f rows).mp hread
      · intro hcalm _
        refine ⟨r, rows, rfl, hquery, ?_⟩
        exact (read_eq_whole_iff f rows).mpr (hcalm r rows rfl hquery)

/-- One row, and the connection breaks before it. -/
def brokenRows : Rows where
  columns := ["coin"]
  resultSet := [[.int64 100]]
  fate := fun _ => .broken

/-- The reply says that it is right and that there is no row. -/
theorem brokenRows_not_complete :
    ¬ ∀ (f : Formats) (req : Except String MySQLReq)
      (queryByUid : UInt64 → String → List Arg → Except String Rows), Complete f req queryByUid := by
  intro h
  rcases h ⟨fun _ => "", fun _ => ""⟩ (.ok ⟨1, selectProfileSql, ["1"]⟩)
    (fun _ _ _ => .ok brokenRows) rfl with ⟨_, _, ⟨⟩, ⟨⟩, hread⟩
  exact absurd (congrArg List.length hread) (by decide)

end Gmaker.Dbproxy
