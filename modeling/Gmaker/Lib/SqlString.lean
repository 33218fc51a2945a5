import Mathlib

/-!
# Gmaker.Lib.SqlString — string literals of MySQL

A literal in single quotes, as MySQL reads it without `NO_BACKSLASH_ESCAPES`: a backslash and the
character behind it stand for one character, two quotes for one, and any other quote ends the
literal. Where only the quotes of a text are escaped, its backslashes come to mean something: the
text comes back if and only if none of them does (`literal_escapeQuotes_iff`).
-/

namespace Gmaker.Lib.SqlString

/-! ## Reading -/

/-- What a backslash and a character stand for. -/
def unescape (c : Char) : List Char :=
  match c with
  | '0' => [Char.ofNat 0]
  | 'b' => [Char.ofNat 8]
  | 't' => [Char.ofNat 9]
  | 'n' => [Char.ofNat 10]
  | 'r' => [Char.ofNat 13]
  | 'Z' => [Char.ofNat 26]
  -- wildcards keep the backslash, for patterns
  | '%' => ['\\', '%']
  | '_' => ['\\', '_']
  | c => [c]

/-- The value of a literal and what is left behind it, from behind the opening quote; `none` is a
literal that does not end. -/
def body : List Char → Option (List Char × List Char)
  | [] => none
  | c :: cs =>
    if c = '\\' then
      match cs with
      | [] => none
      | d :: ds => (body ds).map fun (value, rest) => (unescape d ++ value, rest)
    else if c = '\'' then
      match cs with
      | [] => some ([], [])
      | d :: ds =>
        if d = '\'' then (body ds).map fun (value, rest) => ('\'' :: value, rest)
        else some ([], d :: ds)
    else (body cs).map fun (value, rest) => (c :: value, rest)

/-- A literal at the front of a text: its value, and what is left. -/
def literal : List Char → Option (List Char × List Char)
  | [] => none
  | c :: cs => if c = '\'' then body cs else none

/-! ## Writing -/

/-- A backslash in front of every quote. -/
def escapeQuotes (text : List Char) : List Char :=
  text.flatMap fun c => if c = '\'' then ['\\', '\''] else [c]

/-- Every backslash is in front of a wildcard. -/
def Kept (text : List Char) : Prop :=
  ∀ before after, text = before ++ '\\' :: after →
    after.head? = some '%' ∨ after.head? = some '_'

variable {text value after rest : List Char} {c d : Char}

/-! ## Reading a character -/

theorem body_backslash (d : Char) (text : List Char) :
    body ('\\' :: d :: text) =
      (body text).map fun (value, rest) => (unescape d ++ value, rest) := rfl

theorem body_quote (h : after.head? ≠ some '\'') : body ('\'' :: after) = some ([], after) := by
  cases after with
  | nil => rfl
  | cons d ds =>
    have hne : d ≠ '\'' := fun heq => h (congrArg some heq)
    exact if_neg hne

theorem body_quote_quote (text : List Char) :
    body ('\'' :: '\'' :: text) = (body text).map fun (value, rest) => ('\'' :: value, rest) := rfl

theorem body_plain (hbackslash : c ≠ '\\') (hquote : c ≠ '\'') (text : List Char) :
    body (c :: text) = (body text).map fun (value, rest) => (c :: value, rest) := by
  rw [body.eq_def]
  simp only [if_neg hbackslash, if_neg hquote]

/-- A literal takes its closing quote at least. -/
theorem length_lt_of_body (h : body text = some (value, rest)) : rest.length < text.length := by
  induction text using body.induct generalizing value rest with
  | case1 => cases h
  | case2 => cases h
  | case3 d ds ih =>
    rw [body_backslash] at h
    rcases Option.map_eq_some_iff.mp h with ⟨r, hr, heq⟩
    cases heq
    have hlt := ih hr
    simp only [List.length_cons]
    omega
  | case4 =>
    cases h
    exact Nat.zero_lt_one
  | case5 hne ds ih =>
    rw [body_quote_quote] at h
    rcases Option.map_eq_some_iff.mp h with ⟨r, hr, heq⟩
    cases heq
    have hlt := ih hr
    simp only [List.length_cons]
    omega
  | case6 d ds hne _ =>
    have hhead : (d :: ds).head? ≠ some '\'' := fun heq => hne (Option.some.inj heq)
    rw [body_quote hhead] at h
    cases h
    exact Nat.lt_succ_self _
  | case7 c cs hbackslash hquote ih =>
    rw [body_plain hbackslash hquote] at h
    rcases Option.map_eq_some_iff.mp h with ⟨r, hr, heq⟩
    cases heq
    exact (ih hr).trans (Nat.lt_succ_self _)

/-! ## A character that was written -/

@[simp] theorem escapeQuotes_nil : escapeQuotes [] = [] := rfl

theorem escapeQuotes_quote (text : List Char) :
    escapeQuotes ('\'' :: text) = '\\' :: '\'' :: escapeQuotes text := rfl

theorem escapeQuotes_cons (h : c ≠ '\'') (text : List Char) :
    escapeQuotes (c :: text) = c :: escapeQuotes text := by
  rw [escapeQuotes, List.flatMap_cons, if_neg h]
  rfl

/-- No text that was written begins with a quote. -/
theorem head?_escapeQuotes_append (h : text ≠ []) (after : List Char) :
    (escapeQuotes text ++ after).head? ≠ some '\'' := by
  cases text with
  | nil => exact absurd rfl h
  | cons c text =>
    by_cases hquote : c = '\''
    · rw [hquote, escapeQuotes_quote]
      simp
    · rw [escapeQuotes_cons hquote]
      simp [hquote]

/-- A character has its own value, unless it is a backslash. -/
theorem body_escapeQuotes_cons (h : c ≠ '\\') (text after : List Char) :
    body (escapeQuotes (c :: text) ++ after) =
      (body (escapeQuotes text ++ after)).map fun (value, rest) => (c :: value, rest) := by
  by_cases hquote : c = '\''
  · rw [hquote, escapeQuotes_quote]
    exact body_backslash _ _
  · rw [escapeQuotes_cons hquote]
    exact body_plain h hquote _

/-- A backslash takes the next character with it. -/
theorem body_escapeQuotes_backslash (h : c ≠ '\'') (text after : List Char) :
    body (escapeQuotes ('\\' :: c :: text) ++ after) =
      (body (escapeQuotes text ++ after)).map fun (value, rest) => (unescape c ++ value, rest) := by
  rw [escapeQuotes_cons (by decide), escapeQuotes_cons h]
  exact body_backslash _ _

/-- A backslash at the end takes the closing quote: the literal ends beyond. -/
theorem body_escapeQuotes_last (h : body (escapeQuotes ['\\'] ++ '\'' :: after) = some (value, rest)) :
    rest.length < after.length := by
  have heq : escapeQuotes ['\\'] ++ '\'' :: after = '\\' :: '\'' :: after := rfl
  rw [heq, body_backslash] at h
  rcases Option.map_eq_some_iff.mp h with ⟨r, hr, heq⟩
  cases heq
  exact length_lt_of_body hr

/-- A backslash in front of a quote frees it: the literal ends there, or beyond if the closing
quote is the next. -/
theorem body_escapeQuotes_quote
    (h : body (escapeQuotes ('\\' :: '\'' :: text) ++ '\'' :: after) = some (value, rest)) :
    rest ≠ after := by
  have heq : escapeQuotes ('\\' :: '\'' :: text) ++ '\'' :: after =
      '\\' :: '\\' :: '\'' :: (escapeQuotes text ++ '\'' :: after) := rfl
  rw [heq, body_backslash] at h
  rcases Option.map_eq_some_iff.mp h with ⟨r, hr, heq⟩
  cases heq
  rintro hrest
  -- the pair of backslashes is one of them, and the quote behind it closes the literal
  by_cases hnil : text = []
  · rw [hnil, escapeQuotes_nil, List.nil_append, body_quote_quote] at hr
    rcases Option.map_eq_some_iff.mp hr with ⟨r', hr', heq⟩
    have hlt := length_lt_of_body hr'
    rw [← hrest, ← heq] at hlt
    exact Nat.lt_irrefl _ hlt
  · rw [body_quote (head?_escapeQuotes_append hnil _)] at hr
    have hlength := congrArg List.length hrest
    rw [← Option.some.inj hr] at hlength
    simp only [List.length_append, List.length_cons] at hlength
    omega

/-! ## Backslashes -/

theorem kept_nil : Kept [] := by
  intro before after h
  exact absurd h.symm (List.append_ne_nil_of_right_ne_nil _ (List.cons_ne_nil _ _))

theorem kept_cons : Kept (c :: text) ↔
    (c = '\\' → text.head? = some '%' ∨ text.head? = some '_') ∧ Kept text := by
  constructor
  · intro h
    constructor
    · rintro rfl
      exact h [] text rfl
    · intro before after heq
      exact h (c :: before) after (by rw [heq]; rfl)
  · rintro ⟨hhead, htail⟩ before after heq
    cases before with
    | nil =>
      cases heq
      exact hhead rfl
    | cons b before =>
      cases heq
      exact htail before after rfl

/-- Only wildcards keep their backslash. -/
theorem unescape_cases (c : Char) :
    ((c = '%' ∨ c = '_') ∧ unescape c = ['\\', c]) ∨ (unescape c).length = 1 := by
  unfold unescape
  split
  all_goals simp

/-- What the first character was, where a literal is read up to its closing quote. -/
theorem body_escapeQuotes_cases
    (h : body (escapeQuotes (c :: text) ++ '\'' :: after) = some (value, after)) :
    (c ≠ '\\' ∧ ∃ tail, value = c :: tail ∧
      body (escapeQuotes text ++ '\'' :: after) = some (tail, after)) ∨
    (c = '\\' ∧ ∃ d text' tail, text = d :: text' ∧ value = unescape d ++ tail ∧
      body (escapeQuotes text' ++ '\'' :: after) = some (tail, after)) := by
  by_cases hbackslash : c = '\\'
  · right
    subst hbackslash
    refine ⟨rfl, ?_⟩
    cases text with
    | nil => exact absurd (body_escapeQuotes_last h) (Nat.lt_irrefl _)
    | cons d text' =>
      by_cases hquote : d = '\''
      · subst hquote
        exact absurd rfl (body_escapeQuotes_quote h)
      · rw [body_escapeQuotes_backslash hquote] at h
        rcases Option.map_eq_some_iff.mp h with ⟨r, hr, heq⟩
        cases heq
        exact ⟨d, text', r.1, rfl, rfl, hr⟩
  · left
    refine ⟨hbackslash, ?_⟩
    rw [body_escapeQuotes_cons hbackslash] at h
    rcases Option.map_eq_some_iff.mp h with ⟨r, hr, heq⟩
    cases heq
    exact ⟨r.1, rfl, hr⟩

/-- A text that is read up to its closing quote does not become longer. -/
theorem length_le_of_body (h : body (escapeQuotes text ++ '\'' :: after) = some (value, after))
    (hafter : after.head? ≠ some '\'') : value.length ≤ text.length := by
  -- a backslash takes two characters at once, so the induction is on the length
  induction hn : text.length using Nat.strong_induction_on generalizing text value with
  | _ n ih =>
    cases text with
    | nil =>
      rw [escapeQuotes_nil, List.nil_append, body_quote hafter] at h
      cases h
      exact Nat.zero_le _
    | cons c text =>
      rw [List.length_cons] at hn
      rcases body_escapeQuotes_cases h with ⟨-, tail, rfl, htail⟩ | ⟨-, d, text', tail, rfl, rfl, htail⟩
      · have hle := ih text.length (by omega) htail rfl
        rw [List.length_cons]
        omega
      · rw [List.length_cons] at hn
        have hle := ih text'.length (by omega) htail rfl
        have hone : (unescape d).length ≤ 2 := by
          rcases unescape_cases d with ⟨-, heq⟩ | hlength
          · rw [heq]
            exact Nat.le_refl 2
          · omega
        rw [List.length_append]
        omega

/-- A text that comes back has kept its backslashes: one that was dropped leaves too little. -/
theorem kept_of_body (h : body (escapeQuotes text ++ '\'' :: after) = some (text, after))
    (hafter : after.head? ≠ some '\'') : Kept text := by
  induction hn : text.length using Nat.strong_induction_on generalizing text with
  | _ n ih =>
    cases text with
    | nil => exact kept_nil
    | cons c text =>
      rw [List.length_cons] at hn
      rcases body_escapeQuotes_cases h with
        ⟨hne, tail, heq, htail⟩ | ⟨rfl, d, text', tail, rfl, heq, htail⟩
      · cases heq
        exact kept_cons.mpr ⟨fun heq => absurd heq hne, ih text.length (by omega) htail rfl⟩
      · rw [List.length_cons] at hn
        rcases unescape_cases d with ⟨hwild, hunescape⟩ | hlength
        · rw [hunescape, List.cons_append, List.cons_append, List.nil_append] at heq
          cases heq
          have hd : d ≠ '\\' := by
            rcases hwild with rfl | rfl
            · decide
            · decide
          have hrest := ih text'.length (by omega) htail rfl
          refine kept_cons.mpr ⟨fun _ => ?_, kept_cons.mpr ⟨fun heq => absurd heq hd, hrest⟩⟩
          rcases hwild with rfl | rfl
          · exact Or.inl rfl
          · exact Or.inr rfl
        -- the backslash was dropped, and the rest cannot make up for it
        · have hle := length_le_of_body htail hafter
          have hsame := congrArg List.length heq
          rw [List.length_append, hlength] at hsame
          simp only [List.length_cons] at hsame
          omega

theorem body_of_kept (h : Kept text) (hafter : after.head? ≠ some '\'') :
    body (escapeQuotes text ++ '\'' :: after) = some (text, after) := by
  induction hn : text.length using Nat.strong_induction_on generalizing text with
  | _ n ih =>
    cases text with
    | nil => exact body_quote hafter
    | cons c text =>
      rw [List.length_cons] at hn
      rcases kept_cons.mp h with ⟨hhead, htail⟩
      by_cases hbackslash : c = '\\'
      · subst hbackslash
        cases text with
        | nil => simp at hhead
        | cons d text' =>
          rw [List.length_cons] at hn
          -- both characters come back, as the backslash is in front of a wildcard
          have hwild : d = '%' ∨ d = '_' := by simpa using hhead rfl
          have hunescape : unescape d = ['\\', d] ∧ d ≠ '\'' := by
            rcases hwild with rfl | rfl
            · exact ⟨rfl, by decide⟩
            · exact ⟨rfl, by decide⟩
          rw [body_escapeQuotes_backslash hunescape.2,
            ih text'.length (by omega) (kept_cons.mp htail).2 rfl, Option.map_some, hunescape.1]
          rfl
      · rw [body_escapeQuotes_cons hbackslash, ih text.length (by omega) htail rfl,
          Option.map_some]

/-- A text whose quotes were escaped is one literal with its value, if and only if each of its
backslashes is in front of a wildcard. -/
theorem literal_escapeQuotes_iff (hafter : after.head? ≠ some '\'') :
    literal ('\'' :: (escapeQuotes text ++ '\'' :: after)) = some (text, after) ↔ Kept text := by
  rw [literal, if_pos rfl]
  constructor
  · intro h
    exact kept_of_body h hafter
  · intro h
    exact body_of_kept h hafter

end Gmaker.Lib.SqlString
