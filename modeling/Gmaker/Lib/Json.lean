import Gmaker.Lib.Decimal

/-!
# Gmaker.Lib.Json — flat JSON objects as text

Objects whose values are whole numbers and texts, as they are written without blanks and read
back. In a text everything that could end it is escaped, and so are the control characters and
those that HTML gives a meaning; reading knows every escape but the two halves of a pair. What
was written is read back as it was (`unmarshal_marshal`), and no control character is written
(`printable_marshal`).
-/

namespace Gmaker.Lib.Json

/-- A value of an object. -/
inductive Value where
  | num (n : ℕ)
  | str (s : String)
deriving DecidableEq

/-- The names and values of an object, in order. -/
abbrev Object := List (String × Value)

/-! ## Writing -/

/-- `\u` and four hexadecimal digits. -/
def unicodeEscape (n : ℕ) : List Char :=
  ['\\', 'u', Nat.digitChar (n / 4096 % 16), Nat.digitChar (n / 256 % 16),
    Nat.digitChar (n / 16 % 16), Nat.digitChar (n % 16)]

/-- A character of a text. -/
def escape (c : Char) : List Char :=
  if c = '"' then ['\\', '"']
  else if c = '\\' then ['\\', '\\']
  else if c = '\x08' then ['\\', 'b']
  else if c = '\x0c' then ['\\', 'f']
  else if c = '\n' then ['\\', 'n']
  else if c = '\r' then ['\\', 'r']
  else if c = '\t' then ['\\', 't']
  else if c.toNat < 0x20 ∨ c = '<' ∨ c = '>' ∨ c = '&' ∨ c.toNat = 0x2028 ∨ c.toNat = 0x2029 then
    unicodeEscape c.toNat
  else [c]

/-- A text. -/
def quote (s : String) : List Char := '"' :: (s.toList.flatMap escape ++ ['"'])

def Value.write : Value → List Char
  | num n => Nat.toDigits 10 n
  | str s => quote s

def writeField (f : String × Value) : List Char := quote f.1 ++ ':' :: f.2.write

/-- The fields with a comma after each but the last, and the end. -/
def writeFields : Object → List Char
  | [] => ['}']
  | [f] => writeField f ++ ['}']
  | f :: g :: fs => writeField f ++ ',' :: writeFields (g :: fs)

/-- The text of an object. -/
def marshal (o : Object) : String := String.ofList ('{' :: writeFields o)

/-! ## Reading -/

/-- Where the reading of a text stands: in it, behind a backslash, or in a number with so many
digits left. -/
inductive Quoted where
  | plain
  | escaped
  | hex (left value : ℕ)
deriving DecidableEq

/-- The character that a backslash and a letter stand for. -/
def unescape (c : Char) : Option Char :=
  if c = 'b' then some '\x08'
  else if c = 'f' then some '\x0c'
  else if c = 'n' then some '\n'
  else if c = 'r' then some '\r'
  else if c = 't' then some '\t'
  else if c = '"' ∨ c = '\\' ∨ c = '/' then some c
  else none

/-- A hexadecimal digit of either case. -/
def hexValue (c : Char) : Option ℕ :=
  if '0' ≤ c ∧ c ≤ '9' then some (c.toNat - '0'.toNat)
  else if 'a' ≤ c ∧ c ≤ 'f' then some (c.toNat - 'a'.toNat + 10)
  else if 'A' ≤ c ∧ c ≤ 'F' then some (c.toNat - 'A'.toNat + 10)
  else none

/-- The characters up to the closing quotation mark, and what comes after it. -/
def unquote : Quoted → List Char → Option (List Char × List Char)
  | _, [] => none
  | .plain, c :: cs =>
    if c = '"' then some ([], cs)
    else if c = '\\' then unquote .escaped cs
    else if c.toNat < 0x20 then none
    else (unquote .plain cs).map fun r => (c :: r.1, r.2)
  | .escaped, c :: cs =>
    if c = 'u' then unquote (.hex 3 0) cs
    else (unescape c).bind fun d => (unquote .plain cs).map fun r => (d :: r.1, r.2)
  | .hex left value, c :: cs =>
    (hexValue c).bind fun d =>
      match left with
      | left + 1 => unquote (.hex left (value * 16 + d)) cs
      | 0 =>
        if (value * 16 + d).isValidChar then
          (unquote .plain cs).map fun r => (Char.ofNat (value * 16 + d) :: r.1, r.2)
        else none

/-- A value, and what comes after it. -/
def readValue : List Char → Option (Value × List Char)
  | '"' :: cs => (unquote .plain cs).map fun r => (.str (String.ofList r.1), r.2)
  | cs => (parseDigits (cs.takeWhile Char.isDigit)).map fun n => (.num n, cs.dropWhile Char.isDigit)

/-- The fields up to the end of the object, `n` at most. -/
def readFields : ℕ → List Char → Option Object
  | 0, _ => none
  | n + 1, '"' :: cs =>
    (unquote .plain cs).bind fun
      | (name, ':' :: cs) => (readValue cs).bind fun
        | (v, ',' :: cs) => (readFields n cs).map fun fs => (String.ofList name, v) :: fs
        | (v, ['}']) => some [(String.ofList name, v)]
        | _ => none
      | _ => none
  | _, _ => none

/-- The object that a text is of. -/
def unmarshal (s : String) : Option Object :=
  match s.toList with
  | ['{', '}'] => some []
  | '{' :: cs => readFields cs.length cs
  | _ => none

/-! ## What is written is read -/

theorem hexValue_digitChar {d : ℕ} (hd : d < 16) : hexValue (Nat.digitChar d) = some d := by
  interval_cases d <;> decide

theorem unquote_unicodeEscape {c : Char} (hc : c.toNat < 0x10000) (cs : List Char) :
    unquote .plain (unicodeEscape c.toNat ++ cs) =
      (unquote .plain cs).map fun r => (c :: r.1, r.2) := by
  have hdigit : ∀ n, hexValue (Nat.digitChar (n % 16)) = some (n % 16) :=
    fun n => hexValue_digitChar (Nat.mod_lt n (by decide))
  have hvalue : ((c.toNat / 4096 % 16 * 16 + c.toNat / 256 % 16) * 16 + c.toNat / 16 % 16) * 16 +
      c.toNat % 16 = c.toNat := by omega
  have hvalid : c.toNat.isValidChar := c.valid
  show unquote (.hex 3 0) (_ :: _ :: _ :: _ :: cs) = _
  simp only [unquote, hdigit, Option.bind_some, Nat.zero_mul, Nat.zero_add, hvalue, if_pos hvalid,
    Char.ofNat_toNat]

/-- A character that is written is read. -/
theorem unquote_escape (c : Char) (cs : List Char) :
    unquote .plain (escape c ++ cs) = (unquote .plain cs).map fun r => (c :: r.1, r.2) := by
  unfold escape
  split_ifs with hquote hback hb hf hn hr ht hu
  · subst hquote; rfl
  · subst hback; rfl
  · subst hb; rfl
  · subst hf; rfl
  · subst hn; rfl
  · subst hr; rfl
  · subst ht; rfl
  · refine unquote_unicodeEscape ?_ cs
    rcases hu with h | rfl | rfl | rfl | h | h
    · omega
    · decide
    · decide
    · decide
    · omega
    · omega
  · -- the character stands for itself
    have hprint : ¬c.toNat < 0x20 := fun h => hu (.inl h)
    show unquote .plain (c :: cs) = _
    rw [unquote, if_neg hquote, if_neg hback, if_neg hprint]

/-- A text ends where its quotation mark stands. -/
theorem unquote_quote (s : String) (cs : List Char) :
    unquote .plain (s.toList.flatMap escape ++ '"' :: cs) = some (s.toList, cs) := by
  induction s.toList with
  | nil => rfl
  | cons c l ih =>
    rw [List.flatMap_cons, List.append_assoc, unquote_escape, ih]
    rfl

/-- What follows a number in an object is not a digit. -/
def Ends (cs : List Char) : Prop := ∃ c rest, cs = c :: rest ∧ c.isDigit = false

theorem readValue_write (v : Value) (cs : List Char) (hends : Ends cs) :
    readValue (v.write ++ cs) = some (v, cs) := by
  cases v with
  | str s =>
    show (unquote .plain ((s.toList.flatMap escape ++ ['"']) ++ cs)).map _ = _
    rw [List.append_assoc, List.singleton_append, unquote_quote, Option.map_some, String.ofList_toList]
  | num n =>
    obtain ⟨c, rest, rfl, hc⟩ := hends
    have hdigits : ∀ d ∈ Nat.toDigits 10 n, d.isDigit = true := fun d hd => isDigit_of_mem_toDigits hd
    have htake : (Nat.toDigits 10 n ++ c :: rest).takeWhile Char.isDigit = Nat.toDigits 10 n := by
      rw [List.takeWhile_append_of_pos hdigits, List.takeWhile_cons_of_neg (by simp [hc]),
        List.append_nil]
    have hdrop : (Nat.toDigits 10 n ++ c :: rest).dropWhile Char.isDigit = c :: rest := by
      rw [List.dropWhile_append_of_pos hdigits, List.dropWhile_cons_of_neg (by simp [hc])]
    have hread : readValue (Nat.toDigits 10 n ++ c :: rest) =
        (parseDigits ((Nat.toDigits 10 n ++ c :: rest).takeWhile Char.isDigit)).map fun m =>
          (.num m, (Nat.toDigits 10 n ++ c :: rest).dropWhile Char.isDigit) := by
      -- the first digit is not a quotation mark
      cases hn : Nat.toDigits 10 n with
      | nil => exact absurd hn Nat.toDigits_ne_nil
      | cons d ds =>
        have hd : d.isDigit = true := hdigits d (hn ▸ List.mem_cons_self)
        rw [List.cons_append, readValue]
        rintro cs heq
        cases heq
        exact absurd hd (by decide)
    show readValue (Nat.toDigits 10 n ++ c :: rest) = _
    rw [hread, htake, hdrop, parseDigits_toDigits]
    rfl

theorem writeField_append (f : String × Value) (cs : List Char) :
    writeField f ++ cs = '"' :: (f.1.toList.flatMap escape ++ '"' :: ':' :: (f.2.write ++ cs)) := by
  unfold writeField quote
  simp only [List.cons_append, List.append_assoc, List.nil_append]

/-- The last field. -/
theorem readFields_last (n : ℕ) (f : String × Value) :
    readFields (n + 1) (writeField f ++ ['}']) = some [f] := by
  have hvalue := readValue_write f.2 ['}'] ⟨'}', [], rfl, by decide⟩
  rw [writeField_append, readFields, unquote_quote, Option.bind_some]
  show (readValue _).bind _ = _
  rw [hvalue, Option.bind_some]
  show some [(String.ofList f.1.toList, f.2)] = _
  rw [String.ofList_toList]

/-- A field with others behind it. -/
theorem readFields_comma (n : ℕ) (f : String × Value) (cs : List Char) :
    readFields (n + 1) (writeField f ++ ',' :: cs) = (readFields n cs).map (f :: ·) := by
  have hvalue := readValue_write f.2 (',' :: cs) ⟨',', cs, rfl, by decide⟩
  rw [writeField_append, readFields, unquote_quote, Option.bind_some]
  show (readValue _).bind _ = _
  rw [hvalue, Option.bind_some]
  show (readFields n cs).map (fun fs => (String.ofList f.1.toList, f.2) :: fs) = _
  rw [String.ofList_toList]

theorem readFields_writeFields (o : Object) (ho : o ≠ []) {n : ℕ} (hn : o.length ≤ n) :
    readFields n (writeFields o) = some o := by
  induction o generalizing n with
  | nil => exact absurd rfl ho
  | cons f fs ih =>
    cases n with
    | zero => cases hn
    | succ n =>
      cases fs with
      | nil => exact readFields_last n f
      | cons g fs =>
        show readFields (n + 1) (writeField f ++ ',' :: writeFields (g :: fs)) = _
        rw [readFields_comma, ih (by simp) (Nat.succ_le_succ_iff.mp hn), Option.map_some]

/-- There is at least one character for each field. -/
theorem length_le_length_writeFields (o : Object) : o.length ≤ (writeFields o).length := by
  induction o with
  | nil => exact Nat.zero_le _
  | cons f fs ih =>
    cases fs with
    | nil => simp [writeFields]
    | cons g fs =>
      rw [writeFields, List.length_append, List.length_cons, List.length_cons (a := ',')]
      omega

/-- What was written is read back. -/
theorem unmarshal_marshal (o : Object) : unmarshal (marshal o) = some o := by
  unfold unmarshal marshal
  rw [String.toList_ofList]
  cases o with
  | nil => rfl
  | cons f fs =>
    -- the first field does not end the object
    have hfirst : ∃ cs, writeFields (f :: fs) = '"' :: cs := by
      cases fs with
      | nil => exact ⟨_, writeField_append f _⟩
      | cons g fs => exact ⟨_, writeField_append f _⟩
    obtain ⟨cs, hcs⟩ := hfirst
    have hread := readFields_writeFields (f :: fs) (by simp) (length_le_length_writeFields _)
    rw [hcs] at hread ⊢
    exact hread

/-! ## No control characters -/

/-- A character that is no control character. -/
def Printable (c : Char) : Prop := 0x20 ≤ c.toNat

instance : DecidablePred Printable := fun c => inferInstanceAs (Decidable (0x20 ≤ c.toNat))

theorem printable_digitChar {d : ℕ} (hd : d < 16) : Printable (Nat.digitChar d) := by
  interval_cases d <;> decide

/-- Of a character that is no control character only such characters are written. -/
theorem printable_escape {c d : Char} (hd : d ∈ escape c) : Printable d := by
  have hhex : ∀ n, Printable (Nat.digitChar (n % 16)) :=
    fun n => printable_digitChar (Nat.mod_lt n (by decide))
  unfold escape unicodeEscape at hd
  split_ifs at hd with hquote hback hb hf hn hr ht hu
  iterate 7
    · fin_cases hd <;> decide
  · simp only [List.mem_cons, List.not_mem_nil, or_false] at hd
    rcases hd with rfl | rfl | rfl | rfl | rfl | rfl
    · decide
    · decide
    all_goals exact hhex _
  · rw [List.mem_singleton] at hd
    subst hd
    exact not_lt.mp fun h => hu (.inl h)

theorem printable_quote {s : String} {d : Char} (hd : d ∈ quote s) : Printable d := by
  rcases List.mem_cons.mp hd with rfl | hd
  · decide
  rcases List.mem_append.mp hd with hd | hd
  · obtain ⟨c, -, hc⟩ := List.mem_flatMap.mp hd
    exact printable_escape hc
  · cases List.mem_singleton.mp hd
    decide

theorem printable_writeField {f : String × Value} {d : Char} (hd : d ∈ writeField f) :
    Printable d := by
  rcases List.mem_append.mp hd with hd | hd
  · exact printable_quote hd
  rcases List.mem_cons.mp hd with rfl | hd
  · decide
  · obtain ⟨name, v⟩ := f
    cases v with
    | str s => exact printable_quote hd
    | num n =>
      -- digits begin at 48
      have hdigit := isDigit_of_mem_toDigits hd
      rw [Char.isDigit, Bool.and_eq_true, decide_eq_true_iff] at hdigit
      have hle : '0'.val.toNat ≤ d.val.toNat := UInt32.le_iff_toNat_le.mp hdigit.1
      exact le_trans (by decide) hle

/-- No control character is written. -/
theorem printable_marshal {o : Object} {d : Char} (hd : d ∈ (marshal o).toList) : Printable d := by
  unfold marshal at hd
  rw [String.toList_ofList, List.mem_cons] at hd
  rcases hd with rfl | hd
  · decide
  induction o with
  | nil =>
    cases List.mem_singleton.mp hd
    decide
  | cons f fs ih =>
    cases fs with
    | nil =>
      rcases List.mem_append.mp hd with hd | hd
      · exact printable_writeField hd
      · cases List.mem_singleton.mp hd
        decide
    | cons g fs =>
      rcases List.mem_append.mp hd with hd | hd
      · exact printable_writeField hd
      rcases List.mem_cons.mp hd with rfl | hd
      · decide
      · exact ih hd

end Gmaker.Lib.Json
