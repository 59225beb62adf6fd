import DataShapes.Pattern.Syntax
import DataShapes.Value.Equality

/-!
# Valid schemas

A value is a valid schema when it is a truth value, or a dictionary in which every keyword has a value
of the proper form.  Keywords that the standard does not know may have any value.

Main definitions:
* `MetaSchema.Form`, `MetaSchema.form`: the proper form of each keyword;
* `MetaSchema.isSchema`: a valid schema.
-/

namespace DataShapes

namespace MetaSchema

/-- The form of the value of a keyword. -/
inductive Form where
  | anything
  | text
  | truthValue
  | array
  | number
  | positiveNumber
  /-- A whole number that is not negative. -/
  | count
  /-- A pattern. -/
  | pattern
  | schema
  /-- At least one schema. -/
  | schemas
  | schemaOrSchemas
  /-- A dictionary of schemas. -/
  | schemaTable
  /-- A dictionary of schemas under patterns. -/
  | patternTable
  /-- A dictionary of schemas and lists of names. -/
  | dependencyTable
  /-- Distinct texts. -/
  | names
  /-- The name of a type, or distinct names of types. -/
  | types
deriving DecidableEq, Repr

/-- The forms of the keywords of the standard. -/
def forms : List (Form × List String) :=
  [(.text, ["$id", "$schema", "$ref", "$comment", "title", "description", "format",
            "contentMediaType", "contentEncoding"]),
   (.truthValue, ["readOnly", "uniqueItems"]),
   (.array, ["examples", "enum"]),
   (.number, ["maximum", "exclusiveMaximum", "minimum", "exclusiveMinimum"]),
   (.positiveNumber, ["multipleOf"]),
   (.count, ["maxLength", "minLength", "maxItems", "minItems", "maxProperties", "minProperties"]),
   (.pattern, ["pattern"]),
   (.schema, ["additionalItems", "contains", "additionalProperties", "propertyNames", "if", "then",
              "else", "not"]),
   (.schemas, ["allOf", "anyOf", "oneOf"]),
   (.schemaOrSchemas, ["items"]),
   (.schemaTable, ["definitions", "properties"]),
   (.patternTable, ["patternProperties"]),
   (.dependencyTable, ["dependencies"]),
   (.names, ["required"]),
   (.types, ["type"])]

/-- The form of a keyword. -/
def form (keyword : String) : Form :=
  ((forms.find? fun e => e.2.contains keyword).map Prod.fst).getD .anything

/-- The names of types. -/
def typeNames : List String :=
  ["array", "boolean", "integer", "null", "number", "object", "string"]

/-- No text occurs twice. -/
def distinctTexts : List String → Bool
  | [] => true
  | s :: ss => !ss.contains s && distinctTexts ss

/-- A list of distinct texts. -/
def isNames : Value → Bool
  | .list items => items.all Value.isStr && distinctTexts (items.filterMap Value.str?)
  | _ => false

/-- The name of a type. -/
def isTypeName : Value → Bool
  | .str s => typeNames.contains s
  | _ => false

/-- The name of a type, or distinct names of types. -/
def isTypes : Value → Bool
  | .list items => !items.isEmpty && items.all isTypeName && isNames (.list items)
  | v => isTypeName v

/-- A truth value. -/
def isTruthValue : Value → Bool
  | .bool _ => true
  | _ => false

/-- A list; a tuple is none. -/
def isArray : Value → Bool
  | .list _ => true
  | _ => false

/-- A number; a truth value is none. -/
def isNumber : Value → Bool
  | .int _ | .float _ => true
  | _ => false

/-- A number above zero, or one that cannot be compared with it. -/
def isPositive : Value → Bool
  | .int n => 0 < n
  | .float d => d.isNaN || (!d.isNegative && !d.isZero)
  | _ => false

/-- A whole number that is not negative. -/
def isCount : Value → Bool
  | .int n => 0 ≤ n
  | .float d => d.isWhole && (!d.isNegative || d.isZero)
  | _ => false

/-- A pattern; values that are no texts are not judged. -/
def isPatternKey : Value → Bool
  | .str s => Pattern.isValid s
  | _ => true

/-- The forms that involve no schemas; a value has no other one unless it is a container or a truth
    value. -/
def hasPlainForm (f : Form) (v : Value) : Bool :=
  match f with
  | .anything => true
  | .text => v.isStr
  | .truthValue => isTruthValue v
  | .array => isArray v
  | .number => isNumber v
  | .positiveNumber => isPositive v
  | .count => isCount v
  | .pattern => v.isStr && isPatternKey v
  | .names => isNames v
  | .types => isTypes v
  | _ => false

mutual

/-- The value has a form. -/
def hasForm (f : Form) : Value → Bool
  | .bool b =>
    match f with
    | .schema | .schemaOrSchemas => true
    | f => hasPlainForm f (.bool b)
  | .list items =>
    match f with
    | .schemas | .schemaOrSchemas => !items.isEmpty && areSchemas items
    | f => hasPlainForm f (.list items)
  | .dict entries =>
    match f with
    | .schema | .schemaOrSchemas => hasProperKeywords entries
    | .schemaTable => holdSchemas entries
    | .patternTable => entries.all (fun e => isPatternKey e.1) && holdSchemas entries
    | .dependencyTable => holdDependencies entries
    | f => hasPlainForm f (.dict entries)
  | v => hasPlainForm f v

/-- Every keyword has a value of the proper form. -/
def hasProperKeywords : List (Value × Value) → Bool
  | [] => true
  | (key, v) :: entries =>
    (match key with
      | .str keyword => hasForm (form keyword) v
      | _ => true) && hasProperKeywords entries

/-- All items are valid schemas. -/
def areSchemas : List Value → Bool
  | [] => true
  | v :: vs => hasForm .schema v && areSchemas vs

/-- All entries hold valid schemas. -/
def holdSchemas : List (Value × Value) → Bool
  | [] => true
  | (_, v) :: entries => hasForm .schema v && holdSchemas entries

/-- All entries hold valid schemas or lists of names. -/
def holdDependencies : List (Value × Value) → Bool
  | [] => true
  | (_, v) :: entries => (hasForm .schema v || isNames v) && holdDependencies entries

end

/-- The value is a valid schema. -/
def isSchema (v : Value) : Bool := hasForm .schema v

end MetaSchema

end DataShapes
