import Gmaker.Lib.SqlString

/-!
# Gmaker.Tools.Xlsx2all — SQL from spreadsheets

`genSQL` writes the comments and the defaults of a sheet as string literals and escapes their
quotes only. Every literal is followed by something that is no quote (`emits_genSQL`), so it has
the value it was written for if and only if each backslash of that value is in front of a wildcard
(`genSQL_literal_iff`). A comment with a backslash in front of a quote ends its literal early
(`not_genSQL_literal`).
-/

namespace Gmaker.Tools

open Gmaker.Lib Gmaker.Lib.SqlString

/-! ## The generator -/

/-- `Column`, without what is for the proto file only. -/
structure Column where
  fieldName : String
  dbType : String
  length : String := ""
  unsigned : Bool := false
  defaultVal : String := ""
  hasDefault : Bool := false
  notNull : Bool := false
  autoInc : Bool := false
  comment : String := ""

structure Table where
  name : String
  comment : String := ""
  engine : String := "InnoDB"
  charset : String := "utf8mb4"
  collate : String := "utf8mb4_unicode_ci"
  columns : List Column
  pks : List String := []

/-- `strings.Index` of an opening bracket: -1 without one. -/
def indexBracket (s : String) : ℤ :=
  if '(' ∈ s.toList then s.toList.idxOf '(' else -1

/-- `escapeSQL`. -/
def escapeSQL (s : String) : String := String.ofList (escapeQuotes s.toList)

/-- The types whose defaults are written as they are. -/
def numericTypes : List String :=
  ["int", "integer", "bigint", "tinyint", "smallint", "mediumint",
    "float", "double", "decimal", "numeric", "bool", "boolean"]

section Generator

-- `strings.ToLower`
variable (toLower : String → String)

/-- The name of a type, without its length. -/
def baseType (dbType : String) : String :=
  let t := toLower dbType
  let idx := indexBracket t
  if 0 < idx then String.ofList (t.toList.take idx.toNat) else t

/-- `formatSQLDefault`. -/
def formatSQLDefault (val dbType : String) : String :=
  if val = "NULL" ∨ val = "null" then "NULL"
  else if baseType toLower dbType ∈ numericTypes then val
  else "'" ++ escapeSQL val ++ "'"

/-- `buildColumnSQL`. -/
def buildColumnSQL (col : Column) : String :=
  col.fieldName ++ " " ++
    (if 0 < indexBracket col.dbType then col.dbType
      else if col.length ≠ "" then col.dbType ++ "(" ++ col.length ++ ")"
      else col.dbType) ++
    (if col.unsigned then " UNSIGNED" else "") ++
    (if col.notNull then " NOT NULL" else "") ++
    (if col.autoInc then " AUTO_INCREMENT" else "") ++
    (if col.hasDefault && !col.autoInc then
      " DEFAULT " ++ formatSQLDefault toLower col.defaultVal col.dbType else "") ++
    (if col.comment ≠ "" then " COMMENT '" ++ escapeSQL col.comment ++ "'" else "")

/-- The lines between the brackets. -/
def columnLines (tbl : Table) : List String :=
  tbl.columns.map (fun col => "    " ++ buildColumnSQL toLower col) ++
    (if 0 < tbl.pks.length then ["    PRIMARY KEY (" ++ ", ".intercalate tbl.pks ++ ")"] else [])

/-- `genSQL`, which does not use the name of the database. -/
def genSQL (tbl : Table) (_dbName : String) : String :=
  "-- " ++ tbl.name ++ (if tbl.comment ≠ "" then " (" ++ tbl.comment ++ ")" else "") ++ "\n" ++
    "CREATE TABLE IF NOT EXISTS " ++ tbl.name ++ " (\n" ++
    ",\n".intercalate (columnLines toLower tbl) ++
    "\n) ENGINE=" ++ tbl.engine ++ " DEFAULT CHARSET=" ++ tbl.charset ++
    " COLLATE=" ++ tbl.collate ++
    (if tbl.comment ≠ "" then " COMMENT='" ++ escapeSQL tbl.comment ++ "'" else "") ++ ";\n"

/-- The texts of a sheet that become literals. -/
inductive Quoted (tbl : Table) : String → Prop
  | tableComment : tbl.comment ≠ "" → Quoted tbl tbl.comment
  | columnComment (col : Column) : col ∈ tbl.columns → col.comment ≠ "" → Quoted tbl col.comment
  | columnDefault (col : Column) : col ∈ tbl.columns → col.hasDefault = true →
      col.autoInc = false → col.defaultVal ≠ "NULL" → col.defaultVal ≠ "null" →
      baseType toLower col.dbType ∉ numericTypes → Quoted tbl col.defaultVal

end Generator

/-! ## Where the literals are -/

/-- No quote is at the front. -/
def Open (s : String) : Prop := s.toList.head? ≠ some '\''

/-- The text has this value as a literal, and no quote behind it. -/
def Emits (text value : String) : Prop :=
  ∃ before after, text = before ++ ("'" ++ escapeSQL value ++ "'") ++ after ∧ Open after

variable {toLower : String → String} {tbl : Table} {col : Column} {text value s t : String}

theorem Open.append (hs : Open s) (ht : Open t) : Open (s ++ t) := by
  unfold Open at hs ht ⊢
  rw [String.toList_append, List.head?_append]
  cases hhead : s.toList.head? with
  | none => exact ht
  | some c =>
    rw [hhead] at hs
    exact hs

/-- What is not empty speaks for what is behind it. -/
theorem Open.append_of_ne_empty (hs : Open s) (hne : s ≠ "") (t : String) : Open (s ++ t) := by
  unfold Open at hs ⊢
  rw [String.toList_append, List.head?_append_of_ne_nil _ (by simpa using hne)]
  exact hs

theorem Open.empty : Open "" := by
  unfold Open
  decide

theorem Open.of_ite {p : Prop} [Decidable p] (hs : Open s) : Open (if p then s else "") := by
  split_ifs
  · exact hs
  · exact Open.empty

theorem emits_literal (value : String) : Emits ("'" ++ escapeSQL value ++ "'") value := by
  refine ⟨"", "", ?_, Open.empty⟩
  rw [String.empty_append, String.append_empty]

theorem Emits.append_left (h : Emits text value) (s : String) : Emits (s ++ text) value := by
  rcases h with ⟨before, after, rfl, hafter⟩
  refine ⟨s ++ before, after, ?_, hafter⟩
  simp only [String.append_assoc]

theorem Emits.append_right (h : Emits text value) (hs : Open s) : Emits (text ++ s) value := by
  rcases h with ⟨before, after, rfl, hafter⟩
  refine ⟨before, after ++ s, ?_, hafter.append hs⟩
  simp only [String.append_assoc]

/-- A literal whose opening quote is the end of what is in front of it. -/
theorem emits_behind {front : String} (hfront : front = s ++ "'") (value : String) :
    Emits (front ++ escapeSQL value ++ "'") value := by
  have h := (emits_literal value).append_left s
  rw [hfront]
  simp only [String.append_assoc] at h ⊢
  exact h

/-- A literal of a line is one of the lines together. -/
theorem Emits.intercalate {sep : String} {lines : List String} (hsep : Open sep) (hne : sep ≠ "")
    (htext : text ∈ lines) (h : Emits text value) : Emits (sep.intercalate lines) value := by
  induction lines with
  | nil => cases htext
  | cons line lines ih =>
    by_cases hnil : lines = []
    · subst hnil
      rw [String.intercalate_singleton, ← List.mem_singleton.mp htext]
      exact h
    · rw [String.intercalate_cons_of_ne_nil hnil]
      rcases List.mem_cons.mp htext with rfl | htail
      · rw [String.append_assoc]
        exact h.append_right (hsep.append_of_ne_empty hne _)
      · exact (ih htail).append_left _

theorem emits_comment (hcomment : col.comment ≠ "") :
    Emits (buildColumnSQL toLower col) col.comment := by
  unfold buildColumnSQL
  rw [if_pos hcomment]
  have hfront : " COMMENT '" = " COMMENT " ++ "'" := rfl
  exact (emits_behind hfront col.comment).append_left _

theorem emits_default (hdefault : col.hasDefault = true) (hautoInc : col.autoInc = false)
    (hNULL : col.defaultVal ≠ "NULL") (hnull : col.defaultVal ≠ "null")
    (htype : baseType toLower col.dbType ∉ numericTypes) :
    Emits (buildColumnSQL toLower col) col.defaultVal := by
  have hformat : formatSQLDefault toLower col.defaultVal col.dbType =
      "'" ++ escapeSQL col.defaultVal ++ "'" := by
    unfold formatSQLDefault
    rw [if_neg (by tauto), if_neg htype]
  unfold buildColumnSQL
  rw [hformat, hdefault, hautoInc]
  refine Emits.append_right ?_ (Open.of_ite ?_)
  · exact ((emits_literal col.defaultVal).append_left " DEFAULT ").append_left _
  · unfold Open
    simp

/-- A literal of a column is one of the table. -/
theorem emits_column (hcol : col ∈ tbl.columns) (h : Emits (buildColumnSQL toLower col) value)
    (dbName : String) : Emits (genSQL toLower tbl dbName) value := by
  have hline : "    " ++ buildColumnSQL toLower col ∈ columnLines toLower tbl :=
    List.mem_append_left _ (List.mem_map.mpr ⟨col, hcol, rfl⟩)
  have hlines : Emits (",\n".intercalate (columnLines toLower tbl)) value :=
    (h.append_left "    ").intercalate (by simp [Open]) (by decide) hline
  unfold genSQL
  have htail : ∀ rest, Open ("\n) ENGINE=" ++ rest) := by
    intro rest
    exact Open.append_of_ne_empty (by simp [Open]) (by decide) rest
  have h' := (hlines.append_right (htail (tbl.engine ++ " DEFAULT CHARSET=" ++ tbl.charset ++
    " COLLATE=" ++ tbl.collate ++
    (if tbl.comment ≠ "" then " COMMENT='" ++ escapeSQL tbl.comment ++ "'" else "") ++
    ";\n"))).append_left ("-- " ++ tbl.name ++
      (if tbl.comment ≠ "" then " (" ++ tbl.comment ++ ")" else "") ++ "\n" ++
      "CREATE TABLE IF NOT EXISTS " ++ tbl.name ++ " (\n")
  simp only [String.append_assoc] at h' ⊢
  exact h'

/-- Every text that becomes a literal is in the SQL as one, with no quote behind it. -/
theorem emits_genSQL (h : Quoted toLower tbl value) (dbName : String) :
    Emits (genSQL toLower tbl dbName) value := by
  cases h with
  | tableComment hcomment =>
    have hfront : " COMMENT='" = " COMMENT=" ++ "'" := rfl
    unfold genSQL
    rw [if_pos hcomment, if_pos hcomment]
    exact ((emits_behind hfront tbl.comment).append_left _).append_right (by simp [Open])
  | columnComment col hcol hcomment => exact emits_column hcol (emits_comment hcomment) dbName
  | columnDefault col hcol hdefault hautoInc hNULL hnull htype =>
    exact emits_column hcol (emits_default hdefault hautoInc hNULL hnull htype) dbName

/-! ## What the literals mean -/

/-- Every backslash of a text is in front of `%` or `_`. -/
def KeptBackslashes (s : String) : Prop := Kept s.toList

/-- Every comment and every default that becomes a literal stands in the SQL as one; and MySQL
reads it as one literal with this text as its value, if and only if each backslash of the text is
in front of a wildcard. -/
theorem genSQL_literal_iff (h : Quoted toLower tbl value) (dbName : String) :
    ∃ before after, genSQL toLower tbl dbName =
        before ++ ("'" ++ escapeSQL value ++ "'") ++ after ∧
      (literal ("'" ++ escapeSQL value ++ "'" ++ after).toList =
        some (value.toList, after.toList) ↔ KeptBackslashes value) := by
  rcases emits_genSQL h dbName with ⟨before, after, heq, hafter⟩
  refine ⟨before, after, heq, ?_⟩
  have hlist : ("'" ++ escapeSQL value ++ "'" ++ after).toList =
      '\'' :: (escapeQuotes value.toList ++ '\'' :: after.toList) := by
    simp [escapeSQL]
  rw [hlist]
  exact literal_escapeQuotes_iff hafter

/-- A column with this comment. -/
def account (comment : String) : Column :=
  { fieldName := "account", dbType := "varchar", comment := comment }

def accounts (comment : String) : Table :=
  { name := "accounts", columns := [account comment] }

theorem quoted_accounts {comment : String} (h : comment ≠ "") :
    Quoted toLower (accounts comment) comment :=
  .columnComment (account comment) List.mem_cons_self h

/-- Quotes alone are escaped as they should be. -/
theorem genSQL_literal_iff_quotes : ∃ before after,
    genSQL id (accounts "player's 'nick'") "gmaker" =
        before ++ ("'" ++ escapeSQL "player's 'nick'" ++ "'") ++ after ∧
      (literal ("'" ++ escapeSQL "player's 'nick'" ++ "'" ++ after).toList =
        some ("player's 'nick'".toList, after.toList) ↔ KeptBackslashes "player's 'nick'") :=
  genSQL_literal_iff (quoted_accounts (by decide)) "gmaker"

/-- A backslash in front of a quote: the literal ends there, and what is behind it is SQL. -/
theorem not_genSQL_literal : ¬ ∀ (toLower : String → String) (tbl : Table) (value dbName : String),
    Quoted toLower tbl value →
      ∃ before after, genSQL toLower tbl dbName =
          before ++ ("'" ++ escapeSQL value ++ "'") ++ after ∧
        literal ("'" ++ escapeSQL value ++ "'" ++ after).toList =
          some (value.toList, after.toList) := by
  intro h
  obtain ⟨before, after, -, hlit⟩ := h id (accounts "\\'; DROP TABLE accounts; #")
    "\\'; DROP TABLE accounts; #" "gmaker" (quoted_accounts (by decide))
  have hearly : literal ("'" ++ escapeSQL "\\'; DROP TABLE accounts; #" ++ "'" ++ after).toList =
      some (['\\'], "; DROP TABLE accounts; #'".toList ++ after.toList) := by
    simp [escapeSQL, escapeQuotes, literal, body, unescape]
  rw [hearly] at hlit
  have hvalue : ['\\'] = "\\'; DROP TABLE accounts; #".toList :=
    congrArg Prod.fst (Option.some.inj hlit)
  exact absurd hvalue (by decide)

end Gmaker.Tools
