import DataShapes.Number.Double

/-!
# Values and type descriptors

Defaults, examples, enumerations, option values and whole documents are values: null, truth
values, integers, floating-point numbers, texts, lists, tuples and dictionaries in order of
arrival.  A type descriptor is itself a value, since declarations pass descriptors where they
pass shorthands; and a descriptor that was put together by hand may hold any value where a
descriptor belongs.  The two types are therefore defined together.

Main definitions:
* `ScalarKind`: the four primitive kinds;
* `Value`, `Descriptor`;
* `Descriptor.WellFormed`: every part of the descriptor is a descriptor;
* `Value.depth`: how deep containers are nested.
-/

namespace DataShapes

/-- The primitive kinds of value. -/
inductive ScalarKind where
  | integer
  | number
  | string
  | boolean
deriving DecidableEq, Repr, Inhabited

/-- The word for a kind. -/
def ScalarKind.name : ScalarKind → String
  | .integer => "integer"
  | .number => "number"
  | .string => "string"
  | .boolean => "boolean"

/-- Names a defined shape: the catalog it belongs to, its declared name and what is shown of it.
    Two handles denote the same shape when catalog and name agree. -/
structure ShapeHandle where
  catalog : String
  name : String
  title : String
  isObject : Bool
deriving DecidableEq, Repr, Inhabited

mutual

/-- A dynamic value. -/
inductive Value where
  | null
  | bool (b : Bool)
  | int (n : Int)
  | float (d : Double)
  | str (s : String)
  | list (items : List Value)
  | tuple (items : List Value)
  /-- A dictionary; no two keys are equal. -/
  | dict (entries : List (Value × Value))
  /-- A type descriptor used as a value. -/
  | descriptor (d : Descriptor)
  /-- A defined shape used as a value. -/
  | shape (handle : ShapeHandle)
  /-- A value of another kind, such as a date, known by the name of its kind and its literal. -/
  | foreign (kind : String) (text : String)

/-- What a property may hold. -/
inductive Descriptor where
  | scalar (kind : ScalarKind)
  | array (item : Descriptor)
  | map (value : Descriptor)
  | union (members : List Descriptor)
  /-- The shape with the given declared name. -/
  | named (name : String)
  /-- A value in the place of a descriptor. -/
  | raw (value : Value)

end

instance : Inhabited Value := ⟨.null⟩
instance : Inhabited Descriptor := ⟨.raw .null⟩

namespace Descriptor

/-- A value in the place of a descriptor: a descriptor value is that descriptor. -/
def ofValue : Value → Descriptor
  | .descriptor d => d
  | v => .raw v

/-- A descriptor as a value. -/
def toValue : Descriptor → Value
  | .raw v => v
  | d => .descriptor d

mutual

/-- Every part of the descriptor, at every depth, is a descriptor. -/
def WellFormed : Descriptor → Bool
  | .scalar _ | .named _ => true
  | .array d | .map d => WellFormed d
  | .union ds => AllWellFormed ds
  | .raw _ => false

/-- Every descriptor of a list is well formed. -/
def AllWellFormed : List Descriptor → Bool
  | [] => true
  | d :: ds => WellFormed d && AllWellFormed ds

end

/-- The descriptors of a list are well formed when each of them is. -/
theorem allWellFormed_iff (ds : List Descriptor) :
    AllWellFormed ds = true ↔ ∀ d ∈ ds, WellFormed d = true := by
  induction ds with
  | nil => simp [AllWellFormed]
  | cons d ds ih => simp [AllWellFormed, ih]

/-- The string scalar, the only type that takes an enumeration, a pattern or a format. -/
def isString : Descriptor → Bool
  | .scalar .string => true
  | _ => false

/-- The descriptor names a shape. -/
def isNamed : Descriptor → Bool
  | .named _ => true
  | _ => false

end Descriptor

namespace Value

/-- The word for the kind of a value. -/
def kindName : Value → String
  | .null => "NoneType"
  | .bool _ => "bool"
  | .int _ => "int"
  | .float _ => "float"
  | .str _ => "str"
  | .list _ => "list"
  | .tuple _ => "tuple"
  | .dict _ => "dict"
  | .descriptor (.scalar _) => "Scalar"
  | .descriptor (.array _) => "ArrayOf"
  | .descriptor (.map _) => "MapOf"
  | .descriptor (.union _) => "UnionOf"
  | .descriptor (.named _) => "NamedShape"
  | .descriptor (.raw _) => "object"
  | .shape _ => "ShapeDefinition"
  | .foreign kind _ => kind

/-- The value counts as true in a condition: null, false, zeros and empty texts and containers do
    not. -/
def isTruthy : Value → Bool
  | .null => false
  | .bool b => b
  | .int n => n != 0
  | .float d => !d.isZero
  | .str s => !s.isEmpty
  | .list items | .tuple items => !items.isEmpty
  | .dict entries => !entries.isEmpty
  | _ => true

/-- The value unless it is null. -/
def toOption : Value → Option Value
  | .null => none
  | v => some v

/-- The text that the value is. -/
def str? : Value → Option String
  | .str s => some s
  | _ => none

/-- The value is a text. -/
def isStr (v : Value) : Bool := v.str?.isSome

mutual

/-- The number of container levels. -/
def depth : Value → Nat
  | .list items | .tuple items => depths items + 1
  | .dict entries => entryDepths entries + 1
  | _ => 1

/-- The greatest depth in a list. -/
def depths : List Value → Nat
  | [] => 0
  | v :: vs => max (depth v) (depths vs)

/-- The greatest depth of a value under a key. -/
def entryDepths : List (Value × Value) → Nat
  | [] => 0
  | (_, v) :: es => max (depth v) (entryDepths es)

end

end Value

end DataShapes
