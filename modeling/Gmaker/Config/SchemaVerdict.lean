import Mathlib
import Gmaker.Config.JsonSchema

/-!
# Gmaker.Config.SchemaVerdict — where the validator is right

The validator accepts a value if and only if every keyword passes its check at every place that
the schema speaks about. A check differs from the meaning of its keyword in a few ways only, in
which it is too lax or too strict. So the verdict is right where some keyword is not met and is
seen not to be, and otherwise where the two kinds of difference are there together or not at all.
-/

namespace Gmaker.Config.JsonSchema

open Gmaker.Lib

/-! ## The keywords in the map of a schema -/

section Lookup

variable (s : Schema)

theorem lookup_entry_append (key key' : String) (value : Option Json) (rest : Fields) :
    (entry key value ++ rest).lookup key' =
      if key' = key then value <|> rest.lookup key' else rest.lookup key' := by
  rcases value with _ | v
  · simp [entry]
  · by_cases hkey : key' = key
    · simp [entry, hkey]
    · have hne : (key' == key) = false := beq_eq_false_iff_ne.mpr hkey
      simp [entry, List.lookup_cons, hkey, hne]

theorem lookup_entry (key key' : String) (value : Option Json) :
    (entry key value).lookup key' = if key' = key then value else none := by
  have h := lookup_entry_append key key' value []
  rw [List.append_nil] at h
  rw [h]
  rcases value with _ | v <;> simp

/-- The keywords one after another. -/
theorem fields_eq : s.fields =
    entry "type" (s.type.map TypeKeyword.json) ++
    (entry "required" (s.required.map fun keys => .array (keys.map .string)) ++
    (entry "properties" (s.properties.map fun subs => .object (subFields subs)) ++
    (entry "items" (s.items.map fun sub => .object sub.fields) ++
    (entry "enum" (s.enum.map .array) ++
    (entry "minimum" (s.minimum.map .number) ++
    (entry "maximum" (s.maximum.map .number) ++
    (entry "minLength" (s.minLength.map .number) ++
    entry "maxLength" (s.maxLength.map .number)))))))) := by
  rcases s with ⟨_, _, _ | _, _ | _, _, _, _, _, _⟩ <;> rfl

theorem lookup_type : s.fields.lookup "type" = s.type.map TypeKeyword.json := by
  rw [fields_eq]
  simp [lookup_entry_append, lookup_entry]

theorem lookup_required : s.fields.lookup "required" =
    s.required.map fun keys => .array (keys.map .string) := by
  rw [fields_eq]
  simp [lookup_entry_append, lookup_entry]

theorem lookup_properties : s.fields.lookup "properties" =
    s.properties.map fun subs => .object (subFields subs) := by
  rw [fields_eq]
  simp [lookup_entry_append, lookup_entry]

theorem lookup_items : s.fields.lookup "items" = s.items.map fun sub => .object sub.fields := by
  rw [fields_eq]
  simp [lookup_entry_append, lookup_entry]

theorem lookup_enum : s.fields.lookup "enum" = s.enum.map .array := by
  rw [fields_eq]
  simp [lookup_entry_append, lookup_entry]

theorem lookup_minimum : s.fields.lookup "minimum" = s.minimum.map .number := by
  rw [fields_eq]
  simp [lookup_entry_append, lookup_entry]

theorem lookup_maximum : s.fields.lookup "maximum" = s.maximum.map .number := by
  rw [fields_eq]
  simp [lookup_entry_append, lookup_entry]

theorem lookup_minLength : s.fields.lookup "minLength" = s.minLength.map .number := by
  rw [fields_eq]
  simp [lookup_entry_append, lookup_entry]

theorem lookup_maxLength : s.fields.lookup "maxLength" = s.maxLength.map .number := by
  rw [fields_eq]
  simp [lookup_entry_append, lookup_entry]

theorem lookup_subFields (key : String) (subs : List (String × Schema)) :
    (subFields subs).lookup key = (subs.lookup key).map fun sub => .object sub.fields := by
  induction subs with
  | nil => rfl
  | cons p subs ih =>
    rcases p with ⟨k, sub⟩
    rw [subFields, List.lookup_cons, List.lookup_cons, ih]
    cases key == k <;> rfl

end Lookup

/-! ## What the checks ask -/

section Checks

variable (g : Conversions)

/-- The value passes the check of a type. -/
def TypePasses : TypeName → Json → Prop
  | .integer, .number x => x.value = floatOfInt (int64 g x.value)
  | name, v => name.Fits v

/-- The value passes the check of a keyword. -/
def Passes : Keyword → Json → Schema → Prop
  | .type, v, s => ∀ name, s.type = some (.one name) → TypePasses g name v
  | .required, v, s => Meets .required v s
  | .enum, v, s => ∀ values ∈ s.enum, ∃ w ∈ values, sprintV g w = sprintV g v
  | .minimum, v, s => ∀ bound ∈ s.minimum, ∀ num ∈ toFloat64 g v, ¬ num.below bound
  | .maximum, v, s => ∀ bound ∈ s.maximum, ∀ num ∈ toFloat64 g v, ¬ num.above bound
  | .minLength, .string t, s => ∀ bound ∈ s.minLength, bound.value ≤ t.utf8ByteSize
  | .maxLength, .string t, s => ∀ bound ∈ s.maxLength, (t.utf8ByteSize : ℚ) ≤ bound.value
  | _, _, _ => True

/-- It passes all checks. -/
def Checked (v : Json) (s : Schema) : Prop := ∀ k, Passes g k v s

variable {g} (v : Json) (s : Schema) (path : String)

theorem checkType_eq_none_iff (name : TypeName) :
    checkType g v name.text path = none ↔ TypePasses g name v := by
  rcases name <;> rcases v <;>
    simp [checkType, TypeName.text, typeOf, TypePasses, TypeName.Fits]

theorem typeError_eq_none_iff : typeError g v s.fields path = none ↔ Passes g .type v s := by
  unfold typeError Passes
  rw [lookup_type]
  rcases htype : s.type with _ | name | names
  · simp [htype]
  · have hne : name.text ≠ "" := by rcases name <;> decide
    simp [TypeKeyword.json, asString, hne, checkType_eq_none_iff, htype]
  · simp [TypeKeyword.json, asString, htype]

theorem filterMap_asString (keys : List String) :
    (keys.map Json.string).filterMap asString = keys := by
  rw [List.filterMap_map]
  exact List.filterMap_some

theorem isSome_lookup_iff (fields : Fields) (key : String) :
    (fields.lookup key).isSome = true ↔ key ∈ fields.map Prod.fst := by
  induction fields with
  | nil => simp
  | cons f fields ih =>
    rw [List.lookup_cons]
    by_cases hkey : key = f.1
    · simp [hkey]
    · have hne : (key == f.1) = false := beq_eq_false_iff_ne.mpr hkey
      simp [hne, hkey, ih]

theorem requiredError_eq_none_iff (fields : Fields) :
    requiredError fields s.fields path = none ↔ Passes g .required (.object fields) s := by
  unfold requiredError Passes Meets
  rw [lookup_required]
  rcases hrequired : s.required with _ | keys
  · simp [hrequired]
  · rw [Option.map_some, Option.bind_some, asArray, Option.bind_some, filterMap_asString,
      List.findSome?_eq_none_iff]
    simp only [hrequired, Option.mem_def, Option.some.injEq, forall_eq']
    refine forall₂_congr fun key _ => ?_
    rw [← isSome_lookup_iff]
    split_ifs with hkey <;> simp [hkey]

theorem enumError_eq_none_iff : enumError g v s.fields path = none ↔ Passes g .enum v s := by
  unfold enumError Passes
  rw [lookup_enum]
  rcases henum : s.enum with _ | values
  · simp [henum]
  · simp [asArray, henum]

theorem boundsError_eq_none_iff :
    boundsError g v s.fields path = none ↔ Passes g .minimum v s ∧ Passes g .maximum v s := by
  unfold boundsError Passes
  rw [lookup_minimum, lookup_maximum]
  rcases hnum : toFloat64 g v with _ | num
  · simp [hnum]
  · rcases hmin : s.minimum with _ | low <;> rcases hmax : s.maximum with _ | high <;>
      simp [asFloat64, hnum, hmin, hmax]

theorem lengthError_eq_none_iff :
    lengthError v s.fields path = none ↔ Passes g .minLength v s ∧ Passes g .maxLength v s := by
  unfold lengthError
  rw [lookup_minLength, lookup_maxLength]
  rcases v with _ | _ | _ | t | _ | _
  case string =>
    unfold Passes
    rcases hmin : s.minLength with _ | low <;> rcases hmax : s.maxLength with _ | high <;>
      simp [asString, asFloat64, hmin, hmax]
  all_goals simp [asString, Passes]

/-- A value without parts, and every value once its parts are accepted. -/
theorem checks_eq_none_iff :
    typeError g v s.fields path = none ∧ Passes g .required v s ∧
      restError g v s.fields path = none ↔ Checked g v s := by
  unfold restError
  rw [Option.orElse_eq_none, Option.orElse_eq_none, typeError_eq_none_iff,
    enumError_eq_none_iff, boundsError_eq_none_iff, lengthError_eq_none_iff (g := g)]
  constructor
  · rintro ⟨htype, hrequired, henum, ⟨hmin, hmax⟩, hshort, hlong⟩ k
    rcases k <;> assumption
  · intro h
    exact ⟨h .type, h .required, h .enum, ⟨h .minimum, h .maximum⟩, h .minLength, h .maxLength⟩

end Checks

/-! ## All places -/

section Places

variable {Q : Json → Schema → Prop} {s : Schema}

/-- What holds of the value and the schema at every place. -/
def Everywhere (Q : Json → Schema → Prop) (v : Json) (s : Schema) : Prop :=
  ∀ v' s', Place v s v' s' → Q v' s'

theorem everywhere_object (fields : Fields) : Everywhere Q (.object fields) s ↔
    Q (.object fields) s ∧ ∀ subs, s.properties = some subs → ∀ f ∈ fields, ∀ sub,
      subs.lookup f.1 = some sub → Everywhere Q f.2 sub := by
  constructor
  · intro h
    refine ⟨h _ _ (.here _ _), ?_⟩
    intro subs hsubs f hf sub hsub v' s' hplace
    exact h v' s' (.property hf hsubs hsub hplace)
  · rintro ⟨hhere, hparts⟩ v' s' hplace
    rcases hplace with _ | ⟨hfield, hsubs, hsub, hplace⟩
    · exact hhere
    · exact hparts _ hsubs _ hfield _ hsub v' s' hplace

theorem everywhere_array (items : List Json) : Everywhere Q (.array items) s ↔
    Q (.array items) s ∧ ∀ sub, s.items = some sub → ∀ v ∈ items, Everywhere Q v sub := by
  constructor
  · intro h
    refine ⟨h _ _ (.here _ _), ?_⟩
    intro sub hsub v hv v' s' hplace
    exact h v' s' (.item hv hsub hplace)
  · rintro ⟨hhere, hparts⟩ v' s' hplace
    rcases hplace with _ | _ | ⟨hitem, hsub, hplace⟩
    · exact hhere
    · exact hparts _ hsub _ hitem v' s' hplace

/-- A value without parts is the only place of itself. -/
theorem everywhere_leaf {v : Json} (hobject : ∀ fields, v ≠ .object fields)
    (harray : ∀ items, v ≠ .array items) : Everywhere Q v s ↔ Q v s := by
  constructor
  · intro h
    exact h _ _ (.here _ _)
  · intro h v' s' hplace
    rcases hplace with _ | _ | _
    · exact h
    · exact absurd rfl (hobject _)
    · exact absurd rfl (harray _)

end Places

section Parts

variable (g : Conversions)

theorem validateValue_leaf {v : Json} (hobject : ∀ fields, v ≠ .object fields)
    (harray : ∀ items, v ≠ .array items) (s : Schema) (path : String) :
    validateValue g v s.fields path = none ↔ Everywhere (Checked g) v s := by
  have hrequired : Passes g .required v s := by
    rcases v with _ | _ | _ | _ | _ | fields
    case object => exact absurd rfl (hobject fields)
    all_goals trivial
  have hvalidate : validateValue g v s.fields path =
      (typeError g v s.fields path <|> restError g v s.fields path) := by
    rcases v with _ | _ | _ | _ | items | fields
    case object => exact absurd rfl (hobject fields)
    case array => exact absurd rfl (harray items)
    all_goals rfl
  rw [everywhere_leaf hobject harray, ← checks_eq_none_iff _ _ path, hvalidate,
    Option.orElse_eq_none]
  exact and_congr_right fun _ => (and_iff_right hrequired).symm

mutual
/-- A value is accepted if and only if it passes all checks at every place. -/
theorem validateValue_eq_none_iff : ∀ (v : Json) (s : Schema) (path : String),
    validateValue g v s.fields path = none ↔ Everywhere (Checked g) v s
  | .null, s, path => validateValue_leaf g (by simp) (by simp) s path
  | .bool _, s, path => validateValue_leaf g (by simp) (by simp) s path
  | .number _, s, path => validateValue_leaf g (by simp) (by simp) s path
  | .string _, s, path => validateValue_leaf g (by simp) (by simp) s path
  | .array items, s, path => by
    have hitems := validateItems_eq_none_iff items
    rw [everywhere_array, ← checks_eq_none_iff _ _ path, validateValue,
      Option.orElse_eq_none, Option.orElse_eq_none, lookup_items]
    rcases hsub : s.items with _ | sub
    · simp [Passes, Meets]
    · simp only [Option.map_some, Option.bind_some, asMap, Option.elim_some, hitems sub path 0,
        Option.some.injEq, forall_eq']
      have hrequired : Passes g .required (.array items) s := trivial
      tauto
  | .object fields, s, path => by
    have hfields := validateFields_eq_none_iff fields
    rw [everywhere_object, ← checks_eq_none_iff _ _ path, validateValue,
      Option.orElse_eq_none, Option.orElse_eq_none, Option.orElse_eq_none, lookup_properties,
      requiredError_eq_none_iff (g := g)]
    rcases hsubs : s.properties with _ | subs
    · simp
    · simp only [Option.map_some, Option.bind_some, asMap, Option.elim_some, hfields subs path,
        Option.some.injEq, forall_eq']
      tauto

theorem validateFields_eq_none_iff : ∀ (fields : Fields) (subs : List (String × Schema))
    (path : String), validateFields g fields (subFields subs) path = none ↔
      ∀ f ∈ fields, ∀ sub, subs.lookup f.1 = some sub → Everywhere (Checked g) f.2 sub
  | [], subs, path => by simp [validateFields]
  | (key, v) :: fields, subs, path => by
    have hrest := validateFields_eq_none_iff fields subs path
    have hvalue := validateValue_eq_none_iff v
    rw [validateFields, Option.orElse_eq_none, hrest, List.forall_mem_cons, lookup_subFields]
    rcases subs.lookup key with _ | sub
    · simp
    · simp [asMap, hvalue]

theorem validateItems_eq_none_iff : ∀ (items : List Json) (sub : Schema) (path : String) (i : ℕ),
    validateItems g items sub.fields path i = none ↔ ∀ v ∈ items, Everywhere (Checked g) v sub
  | [], sub, path, i => by simp [validateItems]
  | v :: items, sub, path, i => by
    have hrest := validateItems_eq_none_iff items sub path (i + 1)
    have hvalue := validateValue_eq_none_iff v
    rw [validateItems, Option.orElse_eq_none, hrest, List.forall_mem_cons, hvalue]
end

end Parts

/-! ## Where a check differs from its keyword -/

section Verdict

variable (g : Conversions)

/-- The check is too lax: a list of types is passed over, `%v` writes different values alike, and
bytes are more than characters. -/
def Lax : Keyword → Json → Schema → Prop
  | .type, v, s => ∃ names, s.type = some (.anyOf names) ∧ ∀ name ∈ names, ¬ name.Fits v
  | .enum, v, s => ∃ values, s.enum = some values ∧
    (∃ w ∈ values, sprintV g w = sprintV g v) ∧ ∀ w ∈ values, w.same v = false
  | .minLength, .string t, s => ∃ bound, s.minLength = some bound ∧
    (t.length : ℚ) < bound.value ∧ bound.value ≤ t.utf8ByteSize
  | _, _, _ => False

/-- The check is too strict: a whole number outside `int64` that the conversion does not give
back, values that are the same and that `%v` writes differently, bounds for a text that stands
for a number, and again bytes. -/
def Strict : Keyword → Json → Schema → Prop
  | .type, .number x, s => s.type = some (.one .integer) ∧ x.value.isInt = true ∧
    ¬ (-2 ^ 63 ≤ x.value.num ∧ x.value.num < 2 ^ 63) ∧
    x.value ≠ floatOfInt (g.int64OutOfRange x.value)
  | .enum, v, s => ∃ values, s.enum = some values ∧
    (∃ w ∈ values, w.same v = true) ∧ ∀ w ∈ values, sprintV g w ≠ sprintV g v
  | .minimum, .string t, s => ∃ bound, s.minimum = some bound ∧
    ∃ num, g.parseFloat t = some num ∧ num.below bound
  | .maximum, .string t, s => ∃ bound, s.maximum = some bound ∧
    ∃ num, g.parseFloat t = some num ∧ num.above bound
  | .maxLength, .string t, s => ∃ bound, s.maxLength = some bound ∧
    (t.length : ℚ) ≤ bound.value ∧ bound.value < t.utf8ByteSize
  | _, _, _ => False

/-- At some place some keyword is so. -/
def Somewhere (Q : Keyword → Json → Schema → Prop) (v : Json) (s : Schema) : Prop :=
  ∃ v' s' k, Place v s v' s' ∧ Q k v' s'

/-- The keyword is not met, and the check is not too lax. -/
def Seen (k : Keyword) (v : Json) (s : Schema) : Prop := ¬ Meets k v s ∧ ¬ Lax g k v s

/-! ## The checks of one keyword -/

theorem length_le_utf8ByteSize (t : String) : t.length ≤ t.utf8ByteSize := by
  rw [← String.length_toList, ← String.ofList_toList (s := t), String.utf8ByteSize_ofList,
    String.toList_ofList]
  induction t.toList with
  | nil => exact Nat.le_refl 0
  | cons c cs ih =>
    rw [List.length_cons, String.utf8Len_cons]
    exact Nat.add_le_add ih c.utf8Size_pos

/-- A number is converted to `int64` and back. -/
theorem integer_check_iff (x : Float64) :
    x.value = floatOfInt (int64 g x.value) ↔ x.value.isInt = true ∧
      ¬ (¬ (-2 ^ 63 ≤ x.value.num ∧ x.value.num < 2 ^ 63) ∧
        x.value ≠ floatOfInt (g.int64OutOfRange x.value)) := by
  by_cases hint : x.value.isInt = true
  · have hden : x.value.den = 1 := by simpa [Rat.isInt] using hint
    have hvalue : x.value = x.value.num := (Rat.coe_int_num_of_den_eq_one hden).symm
    have hint64 : int64 g x.value =
        if -2 ^ 63 ≤ x.value.num ∧ x.value.num < 2 ^ 63 then x.value.num
        else g.int64OutOfRange x.value := by
      unfold int64
      rw [hden]
      simp
    rw [hint64]
    split_ifs with hrange
    · -- inside `int64` nothing is lost
      rw [floatOfInt_of_representable (x.representable_natAbs hvalue)]
      exact ⟨fun _ => ⟨hint, fun h => h.1 hrange⟩, fun _ => hvalue⟩
    · -- outside, everything depends on what the conversion makes of it
      exact ⟨fun h => ⟨hint, fun hno => hno.2 h⟩,
        fun h => by_contra fun hne => h.2 ⟨hrange, hne⟩⟩
  · refine ⟨fun h => absurd ?_ hint, fun h => absurd h.1 hint⟩
    rw [h]
    simp [Rat.isInt]

attribute [local simp] Passes Meets Strict Lax

theorem passes_type_iff (v : Json) (s : Schema) :
    Passes g .type v s ↔ Meets .type v s ∧ ¬ Strict g .type v s ∨ Lax g .type v s := by
  rcases htype : s.type with _ | name | names
  · rcases v <;> simp [htype]
  · rcases name
    case integer =>
      rcases v with _ | _ | x | _ | _ | _
      case number =>
        have hpasses : Passes g .type (.number x) s ↔ x.value = floatOfInt (int64 g x.value) := by
          simp [htype, TypePasses]
        have hlax : ¬ Lax g .type (.number x) s := by simp [htype]
        rw [hpasses, integer_check_iff, or_iff_left hlax]
        simp only [Meets, Strict, htype, TypeName.Fits]
        tauto
      all_goals simp [htype, TypePasses, TypeName.Fits]
    all_goals
      rcases v <;> simp [htype, TypePasses, TypeName.Fits]
  · simp only [Passes, htype, Option.some.injEq, reduceCtorEq, false_implies, implies_true,
      true_iff]
    by_cases hfits : ∃ name ∈ names, name.Fits v
    · left
      refine ⟨by simpa [htype] using hfits, ?_⟩
      rcases v <;> simp [htype]
    · right
      push Not at hfits
      exact ⟨names, htype, hfits⟩

theorem passes_enum_iff (v : Json) (s : Schema) :
    Passes g .enum v s ↔ Meets .enum v s ∧ ¬ Strict g .enum v s ∨ Lax g .enum v s := by
  rcases henum : s.enum with _ | values
  · simp [henum]
  · simp only [Passes, Meets, Strict, Lax, henum, Option.mem_def, Option.some.injEq, forall_eq',
      exists_eq_left']
    by_cases hsame : ∃ w ∈ values, w.same v = true
    · have hnot : ¬ ∀ w ∈ values, w.same v = false := by
        rcases hsame with ⟨w, hw, hwv⟩
        intro h
        exact absurd (h w hw) (by simp [hwv])
      simp only [hsame, hnot, true_and, and_false, or_false]
      push Not
      rfl
    · have hall : ∀ w ∈ values, w.same v = false := by simpa using hsame
      simp only [hsame, false_and, false_or]
      exact ⟨fun h => ⟨h, hall⟩, fun h => h.1⟩

/-- A check is the keyword itself, but for being too strict or too lax. -/
theorem passes_iff (k : Keyword) (v : Json) (s : Schema) :
    Passes g k v s ↔ Meets k v s ∧ ¬ Strict g k v s ∨ Lax g k v s := by
  rcases k
  case type => exact passes_type_iff g v s
  case required => simp
  case enum => exact passes_enum_iff g v s
  case minimum =>
    rcases v with _ | _ | _ | t | _ | _ <;>
      simp [toFloat64, ParsedFloat.below]
  case maximum =>
    rcases v with _ | _ | _ | t | _ | _ <;>
      simp [toFloat64, ParsedFloat.above]
  case minLength =>
    rcases v with _ | _ | _ | t | _ | _
    case string =>
      have hle : (t.length : ℚ) ≤ t.utf8ByteSize := by exact_mod_cast length_le_utf8ByteSize t
      rcases hmin : s.minLength with _ | bound
      · simp [hmin]
      · simp only [Passes, Meets, Strict, Lax, hmin, Option.mem_def, Option.some.injEq,
          forall_eq', exists_eq_left', not_false_eq_true, and_true]
        rcases le_or_gt bound.value t.length with hlong | hshort
        · simp [hlong, hlong.trans hle]
        · simp [hshort, not_le.mpr hshort]
    all_goals simp
  case maxLength =>
    rcases v with _ | _ | _ | t | _ | _
    case string =>
      have hle : (t.length : ℚ) ≤ t.utf8ByteSize := by exact_mod_cast length_le_utf8ByteSize t
      rcases hmax : s.maxLength with _ | bound
      · simp [hmax]
      · simp only [Passes, Meets, Strict, Lax, hmax, Option.mem_def, Option.some.injEq,
          forall_eq', exists_eq_left', or_false, not_and, not_lt]
        exact ⟨fun h => ⟨hle.trans h, fun _ => h⟩, fun h => h.2 h.1⟩
    all_goals simp

/-- The two differences exclude each other. -/
theorem not_lax_of_meets {k : Keyword} {v : Json} {s : Schema} (h : Meets k v s) :
    ¬ Lax g k v s := by
  rcases k
  case type =>
    rintro ⟨names, hnames, hno⟩
    rw [Meets, hnames] at h
    rcases h with ⟨name, hname, hfits⟩
    exact hno name hname hfits
  case enum =>
    rintro ⟨values, hvalues, _, hno⟩
    rcases h values hvalues with ⟨w, hw, hsame⟩
    rw [hno w hw] at hsame
    cases hsame
  case minLength =>
    rcases v with _ | _ | _ | t | _ | _
    case string =>
      rintro ⟨bound, hbound, hshort, _⟩
      exact absurd (h bound hbound) (not_le.mpr hshort)
    all_goals exact id
  all_goals rcases v <;> exact id

theorem meets_of_strict {k : Keyword} {v : Json} {s : Schema} (h : Strict g k v s) :
    Meets k v s := by
  rcases k
  case type =>
    rcases v with _ | _ | x | _ | _ | _
    case number =>
      rw [Meets, h.1]
      exact h.2.1
    all_goals exact h.elim
  case enum =>
    rcases h with ⟨values, hvalues, hsame, _⟩
    intro values' hvalues'
    cases hvalues.symm.trans hvalues'
    exact hsame
  case maxLength =>
    rcases v with _ | _ | _ | t | _ | _
    case string =>
      rcases h with ⟨bound, hbound, hle, _⟩
      intro bound' hbound'
      cases hbound.symm.trans hbound'
      exact hle
    all_goals trivial
  all_goals
    rcases v <;> trivial

/-! ## The verdict -/

variable {g}

theorem valid_iff (v : Json) (s : Schema) :
    Valid v s ↔ ¬ Somewhere (Seen g) v s ∧ ¬ Somewhere (Lax g) v s := by
  constructor
  · intro h
    constructor
    · rintro ⟨v', s', k, hplace, hseen⟩
      exact hseen.1 (h v' s' hplace k)
    · rintro ⟨v', s', k, hplace, hlax⟩
      exact not_lax_of_meets g (h v' s' hplace k) hlax
  · rintro ⟨hseen, hlax⟩ v' s' hplace k
    by_contra hno
    by_cases hk : Lax g k v' s'
    · exact hlax ⟨v', s', k, hplace, hk⟩
    · exact hseen ⟨v', s', k, hplace, hno, hk⟩

theorem everywhere_checked_iff (v : Json) (s : Schema) :
    Everywhere (Checked g) v s ↔ ¬ Somewhere (Seen g) v s ∧ ¬ Somewhere (Strict g) v s := by
  constructor
  · intro h
    constructor
    · rintro ⟨v', s', k, hplace, hno, hlax⟩
      rcases (passes_iff g k v' s').mp (h v' s' hplace k) with hmeets | hk
      · exact hno hmeets.1
      · exact hlax hk
    · rintro ⟨v', s', k, hplace, hstrict⟩
      rcases (passes_iff g k v' s').mp (h v' s' hplace k) with hmeets | hk
      · exact hmeets.2 hstrict
      · exact not_lax_of_meets g (meets_of_strict g hstrict) hk
  · rintro ⟨hseen, hstrict⟩ v' s' hplace k
    rw [passes_iff]
    by_cases hk : Lax g k v' s'
    · exact Or.inr hk
    · left
      constructor
      · by_contra hno
        exact hseen ⟨v', s', k, hplace, hno, hk⟩
      · intro h
        exact hstrict ⟨v', s', k, hplace, h⟩

/-- The validator accepts exactly the valid contents if and only if it sees some keyword that is
not met, or it is nowhere too lax and nowhere too strict, or both somewhere. -/
theorem validate_exact {json : Unmarshal} {content schemaJSON : String} {v : Json} {s : Schema}
    (hschema : json.read schemaJSON = some (.object s.fields))
    (hcontent : json.read content = some v) :
    (validateJSONSchema g json content schemaJSON = none ↔ Valid v s) ↔
      Somewhere (Seen g) v s ∨ (Somewhere (Lax g) v s ↔ Somewhere (Strict g) v s) := by
  have hnonempty : schemaJSON ≠ "" := by
    intro hempty
    rw [hempty, json.read_empty] at hschema
    cases hschema
  have hvalidate : validateJSONSchema g json content schemaJSON =
      validateValue g v s.fields "" := by
    unfold validateJSONSchema
    rw [if_neg hnonempty, hschema, hcontent]
  rw [hvalidate, validateValue_eq_none_iff, everywhere_checked_iff, valid_iff (g := g)]
  tauto

end Verdict

/-! ## A text of one character and two bytes -/

/-- The schema asks for a string of one character at most. -/
def initialSchema : Schema where
  type := some (.one .string)
  required := none
  properties := none
  items := none
  enum := none
  minimum := none
  maximum := none
  minLength := none
  maxLength := some (.ofNat 1 (by norm_num))

/-- The schema and the content as texts. -/
def initialSchemaText : String := "\x7b\"type\":\"string\",\"maxLength\":1\x7d"

def initialText : String := "\"é\""

/-- What is read from them. -/
def initialTexts : Unmarshal where
  read text :=
    if text = initialSchemaText then some (.object initialSchema.fields)
    else if text = initialText then some (.string "é")
    else none
  read_empty := by decide

/-- The text is no number, and there is none to convert. -/
def initialConversions : Conversions := ⟨fun _ => "", fun _ => none, fun _ => -2 ^ 63⟩

theorem initial_length : "é".length = 1 := by decide

theorem initial_valid : Valid (.string "é") initialSchema := by
  have hmeets : ∀ k, Meets k (.string "é") initialSchema := by
    intro k
    rcases k
    case maxLength =>
      intro bound hbound
      cases hbound
      exact le_of_eq (by norm_num [Float64.ofNat, initial_length])
    all_goals simp [Meets, initialSchema, TypeName.Fits]
  exact (everywhere_leaf (Q := fun v s => ∀ k, Meets k v s) (by simp) (by simp)).mpr hmeets

/-- Two bytes are too many for the validator. -/
theorem initial_strict : Somewhere (Strict initialConversions) (.string "é") initialSchema :=
  ⟨_, _, .maxLength, .here _ _, .ofNat 1 (by norm_num), rfl,
    by norm_num [Float64.ofNat, initial_length], by norm_num [Float64.ofNat]; decide⟩

/-- One letter is refused, though it is one character. -/
theorem initial_refused :
    ¬ (validateJSONSchema initialConversions initialTexts initialText initialSchemaText = none ↔
      Valid (.string "é") initialSchema) := by
  intro h
  have hvalidate : validateJSONSchema initialConversions initialTexts initialText
      initialSchemaText = validateValue initialConversions (.string "é") initialSchema.fields "" := by
    rfl
  have hnone := h.mpr initial_valid
  rw [hvalidate, validateValue_eq_none_iff, everywhere_checked_iff] at hnone
  exact hnone.2 initial_strict

/-- The verdict on it is as the condition says. -/
theorem initial_exact :
    (validateJSONSchema initialConversions initialTexts initialText initialSchemaText = none ↔
        Valid (.string "é") initialSchema) ↔
      Somewhere (Seen initialConversions) (.string "é") initialSchema ∨
        (Somewhere (Lax initialConversions) (.string "é") initialSchema ↔
          Somewhere (Strict initialConversions) (.string "é") initialSchema) :=
  validate_exact (by rfl) (by rfl)

end Gmaker.Config.JsonSchema
