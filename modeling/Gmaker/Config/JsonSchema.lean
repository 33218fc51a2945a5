import Mathlib
import Gmaker.Lib.JsonTree

/-!
# Gmaker.Config.JsonSchema — what a schema says, and what is checked of it

A schema is a JSON object, and the validator goes through the content and the schema together,
with what `json.Unmarshal` makes of both: it looks up each keyword in the map of the schema and
passes over what has not the type it expects. Beside it stands what the keywords mean: at every
place of the content that the schema speaks about, each keyword is met or not.
-/

namespace Gmaker.Config.JsonSchema

open Gmaker.Lib

/-! ## The meaning of the keywords -/

/-- The names of the types. -/
inductive TypeName where
  | string | number | integer | boolean | array | object | null
deriving DecidableEq

def TypeName.text : TypeName → String
  | string => "string"
  | number => "number"
  | integer => "integer"
  | boolean => "boolean"
  | array => "array"
  | object => "object"
  | null => "null"

/-- The value has the type; an integer is a number without a fraction. -/
def TypeName.Fits : TypeName → Json → Prop
  | string, .string _ | number, .number _ | boolean, .bool _ | array, .array _
  | object, .object _ | null, .null => True
  | integer, .number x => x.value.isInt = true
  | _, _ => False

/-- `type`: a name, or a list of names of which one is enough. -/
inductive TypeKeyword where
  | one (name : TypeName)
  | anyOf (names : List TypeName)

/-- A schema of these keywords, each of which may be left out. -/
structure Schema where
  type : Option TypeKeyword
  required : Option (List String)
  properties : Option (List (String × Schema))
  items : Option Schema
  enum : Option (List Json)
  minimum : Option Float64
  maximum : Option Float64
  minLength : Option Float64
  maxLength : Option Float64

/-- The keywords that say something about a value itself. -/
inductive Keyword where
  | type | required | enum | minimum | maximum | minLength | maxLength
deriving DecidableEq

/-- The value meets the keyword: bounds are for numbers, lengths for strings, in characters. -/
def Meets : Keyword → Json → Schema → Prop
  | .type, v, s =>
    match s.type with
    | some (.one name) => name.Fits v
    | some (.anyOf names) => ∃ name ∈ names, name.Fits v
    | none => True
  | .required, .object fields, s => ∀ keys ∈ s.required, ∀ key ∈ keys, key ∈ fields.map Prod.fst
  | .enum, v, s => ∀ values ∈ s.enum, ∃ w ∈ values, w.same v = true
  | .minimum, .number x, s => ∀ bound ∈ s.minimum, bound.value ≤ x.value
  | .maximum, .number x, s => ∀ bound ∈ s.maximum, x.value ≤ bound.value
  | .minLength, .string t, s => ∀ bound ∈ s.minLength, bound.value ≤ t.length
  | .maxLength, .string t, s => ∀ bound ∈ s.maxLength, (t.length : ℚ) ≤ bound.value
  | _, _, _ => True

/-- The places of a value that a schema speaks about, with what it says of them. -/
inductive Place : Json → Schema → Json → Schema → Prop where
  | here (v : Json) (s : Schema) : Place v s v s
  | property {fields : List (String × Json)} {s sub s' : Schema} {key : String} {v v' : Json}
      {properties : List (String × Schema)} (hfield : (key, v) ∈ fields)
      (hproperties : s.properties = some properties) (hsub : properties.lookup key = some sub)
      (hplace : Place v sub v' s') : Place (.object fields) s v' s'
  | item {items : List Json} {s sub s' : Schema} {v v' : Json} (hitem : v ∈ items)
      (hsub : s.items = some sub) (hplace : Place v sub v' s') : Place (.array items) s v' s'

/-- At every place every keyword is met. -/
def Valid (v : Json) (s : Schema) : Prop := ∀ v' s', Place v s v' s' → ∀ k, Meets k v' s'

/-! ## A schema as a JSON object -/

/-- The fields of a map. -/
abbrev Fields := List (String × Json)

/-- The field of a keyword, if it is there. -/
def entry (key : String) (value : Option Json) : Fields := (value.map fun v => (key, v)).toList

def TypeKeyword.json : TypeKeyword → Json
  | one name => .string name.text
  | anyOf names => .array (names.map fun name => .string name.text)

mutual
/-- The keywords that the schema has. -/
def Schema.fields : Schema → Fields
  | ⟨type, required, properties, items, enum, minimum, maximum, minLength, maxLength⟩ =>
    entry "type" (type.map TypeKeyword.json) ++
    (entry "required" (required.map fun keys => .array (keys.map .string)) ++
    (entry "properties" (match properties with
      | some subs => some (.object (subFields subs))
      | none => none) ++
    (entry "items" (match items with
      | some sub => some (.object sub.fields)
      | none => none) ++
    (entry "enum" (enum.map .array) ++
    (entry "minimum" (minimum.map .number) ++
    (entry "maximum" (maximum.map .number) ++
    (entry "minLength" (minLength.map .number) ++
    entry "maxLength" (maxLength.map .number))))))))

/-- The schemas of the properties. -/
def subFields : List (String × Schema) → Fields
  | [] => []
  | (key, sub) :: subs => (key, .object sub.fields) :: subFields subs
end

/-! ## The validator -/

/-- What `strconv.ParseFloat` reads. -/
inductive ParsedFloat where
  | finite (x : Float64)
  | infinite (negative : Bool)
  | nan

/-- The conversions of the language: a number as `%v` writes it, the number a text stands for,
and what becomes of a number outside `int64` when it is converted to one. -/
structure Conversions where
  formatFloat : Float64 → String
  parseFloat : String → Option ParsedFloat
  int64OutOfRange : ℚ → ℤ

/-- The errors: `invalid schema json`, `invalid content json`, `%s: missing required field %q`,
`%s: value %v not in enum %v`, `%s: value %v < minimum %v`, `%s: value %v > maximum %v`,
`%s: string length %d < minLength %d`, `%s: string length %d > maxLength %d`,
`%s: expected integer, got %v`, `%s: expected type %q, got %q`. -/
inductive SchemaError where
  | invalidSchema
  | invalidContent
  | missing (path key : String)
  | notInEnum (path : String) (data : Json) (values : List Json)
  | belowMinimum (path : String) (num : ParsedFloat) (bound : Float64)
  | aboveMaximum (path : String) (num : ParsedFloat) (bound : Float64)
  | tooShort (path : String) (length : ℕ) (bound : Float64)
  | tooLong (path : String) (length : ℕ) (bound : Float64)
  | expectedInteger (path : String) (data : Json)
  | expectedType (path expected actual : String)

section Validator

variable (g : Conversions)

mutual
/-- `fmt.Sprintf("%v", data)`. -/
def sprintV : Json → String
  | .null => "<nil>"
  | .bool b => if b then "true" else "false"
  | .number x => g.formatFloat x
  | .string s => s
  | .array items => "[" ++ String.intercalate " " (sprintItems items) ++ "]"
  | .object fields =>
    -- the fields of a map are written in the order of their keys
    "map[" ++ String.intercalate " " (((sprintFields fields).mergeSort fun p q => p.1 ≤ q.1).map
      fun p => p.1 ++ ":" ++ p.2) ++ "]"

def sprintItems : List Json → List String
  | [] => []
  | v :: vs => sprintV v :: sprintItems vs

def sprintFields : Fields → List (String × String)
  | [] => []
  | (k, v) :: fields => (k, sprintV v) :: sprintFields fields
end

/-- The `actual` of `checkType`. -/
def typeOf : Json → String
  | .string _ => "string"
  | .number _ => "number"
  | .bool _ => "boolean"
  | .array _ => "array"
  | .object _ => "object"
  | .null => "null"

/-- `int64(n)`: towards zero. -/
def int64 (n : ℚ) : ℤ :=
  let z := n.num.tdiv n.den
  if -2 ^ 63 ≤ z ∧ z < 2 ^ 63 then z else g.int64OutOfRange n

/-- `checkType`. -/
def checkType (data : Json) (expected path : String) : Option SchemaError :=
  let actual := typeOf data
  if expected = "integer" ∧ actual = "number" then
    match data with
    | .number n =>
      if n.value = floatOfInt (int64 g n.value) then none
      else some (.expectedInteger path data)
    | _ => some (.expectedInteger path data)
  else if actual ≠ expected then some (.expectedType path expected actual)
  else none

/-- `toFloat64`: a number, or a text that stands for one. -/
def toFloat64 : Json → Option ParsedFloat
  | .number x => some (.finite x)
  | .string s => g.parseFloat s
  | _ => none

/-- `num < min`. -/
def ParsedFloat.below : ParsedFloat → Float64 → Prop
  | .finite x, bound => x.value < bound.value
  | .infinite negative, _ => negative = true
  | .nan, _ => False

/-- `num > max`. -/
def ParsedFloat.above : ParsedFloat → Float64 → Prop
  | .finite x, bound => bound.value < x.value
  | .infinite negative, _ => negative = false
  | .nan, _ => False

instance (x : ParsedFloat) (bound : Float64) : Decidable (x.below bound) :=
  match x with
  | .finite x => inferInstanceAs (Decidable (x.value < bound.value))
  | .infinite negative => inferInstanceAs (Decidable (negative = true))
  | .nan => inferInstanceAs (Decidable False)

instance (x : ParsedFloat) (bound : Float64) : Decidable (x.above bound) :=
  match x with
  | .finite x => inferInstanceAs (Decidable (bound.value < x.value))
  | .infinite negative => inferInstanceAs (Decidable (negative = false))
  | .nan => inferInstanceAs (Decidable False)

/-! ## Type assertions -/

def asString : Json → Option String
  | .string s => some s
  | _ => none

def asFloat64 : Json → Option Float64
  | .number x => some x
  | _ => none

def asArray : Json → Option (List Json)
  | .array items => some items
  | _ => none

def asMap : Json → Option Fields
  | .object fields => some fields
  | _ => none

/-! ## The checks of one value -/

/-- The type. -/
def typeError (data : Json) (schema : Fields) (path : String) : Option SchemaError :=
  ((schema.lookup "type").bind asString).bind fun typeVal =>
    if typeVal ≠ "" then checkType g data typeVal path else none

/-- The first required field that is missing. -/
def requiredError (obj schema : Fields) (path : String) : Option SchemaError :=
  ((schema.lookup "required").bind asArray).bind fun reqArr =>
    (reqArr.filterMap asString).findSome? fun key =>
      if (obj.lookup key).isSome then none else some (.missing path key)

/-- The enumeration: values are compared by the texts that `%v` writes. -/
def enumError (data : Json) (schema : Fields) (path : String) : Option SchemaError :=
  ((schema.lookup "enum").bind asArray).bind fun enumArr =>
    if enumArr.any fun ev => sprintV g ev = sprintV g data then none
    else some (.notInEnum path data enumArr)

/-- The bounds. -/
def boundsError (data : Json) (schema : Fields) (path : String) : Option SchemaError :=
  (toFloat64 g data).bind fun num =>
    (((schema.lookup "minimum").bind asFloat64).bind fun bound =>
      if num.below bound then some (.belowMinimum path num bound) else none) <|>
    (((schema.lookup "maximum").bind asFloat64).bind fun bound =>
      if num.above bound then some (.aboveMaximum path num bound) else none)

/-- The lengths, in bytes. -/
def lengthError (data : Json) (schema : Fields) (path : String) : Option SchemaError :=
  (asString data).bind fun s =>
    (((schema.lookup "minLength").bind asFloat64).bind fun bound =>
      if (s.utf8ByteSize : ℚ) < bound.value then some (.tooShort path s.utf8ByteSize bound)
      else none) <|>
    (((schema.lookup "maxLength").bind asFloat64).bind fun bound =>
      if bound.value < s.utf8ByteSize then some (.tooLong path s.utf8ByteSize bound) else none)

/-- What comes after the parts of the value. -/
def restError (data : Json) (schema : Fields) (path : String) : Option SchemaError :=
  enumError g data schema path <|> boundsError g data schema path <|> lengthError data schema path

/-- The path of a field. -/
def childPath (path key : String) : String := if path ≠ "" then path ++ "." ++ key else key

mutual
/-- `validateValue`. -/
def validateValue : Json → Fields → String → Option SchemaError
  | .object obj, schema, path =>
    typeError g (.object obj) schema path <|> requiredError obj schema path <|>
      (((schema.lookup "properties").bind asMap).elim none fun props =>
        validateFields obj props path) <|>
      restError g (.object obj) schema path
  | .array arr, schema, path =>
    typeError g (.array arr) schema path <|>
      (((schema.lookup "items").bind asMap).elim none fun itemsSchema =>
        validateItems arr itemsSchema path 0) <|>
      restError g (.array arr) schema path
  | data, schema, path => typeError g data schema path <|> restError g data schema path

/-- The loop over the fields of an object. -/
def validateFields : Fields → Fields → String → Option SchemaError
  | [], _, _ => none
  | (key, val) :: obj, props, path =>
    (((props.lookup key).bind asMap).elim none fun propSchema =>
      validateValue val propSchema (childPath path key)) <|> validateFields obj props path

/-- The loop over the items of an array. -/
def validateItems : List Json → Fields → String → ℕ → Option SchemaError
  | [], _, _, _ => none
  | item :: arr, schema, path, i =>
    validateValue item schema (path ++ "[" ++ toString i ++ "]") <|>
      validateItems arr schema path (i + 1)
end

end Validator

/-- `json.Unmarshal` into an value of any type. -/
structure Unmarshal where
  read : String → Option Json
  read_empty : read "" = none

/-- `ValidateJSONSchema`; a schema is read into a map. -/
def validateJSONSchema (g : Conversions) (json : Unmarshal) (content schemaJSON : String) :
    Option SchemaError :=
  if schemaJSON = "" then none
  else
    match json.read schemaJSON with
    | some (.object schema) =>
      match json.read content with
      | some data => validateValue g data schema ""
      | none => some .invalidContent
    | some .null =>
      match json.read content with
      | some data => validateValue g data [] ""
      | none => some .invalidContent
    | _ => some .invalidSchema

end Gmaker.Config.JsonSchema
