import DataShapes.Descriptor.Shorthand
import DataShapes.Options

/-!
# Declared properties

A property is declared by its name, its type and its options, as a tuple of two or three values or
as a finished specification whose type may still be in short form.

Main definitions:
* `PropertySpec`: a property as declared;
* `Declaration`, `PropertySpec.ofDeclaration`: what a declaration gives;
* `PropertySpec.withDefaults`: a property inside its object.
-/

namespace DataShapes

/-- One property as declared. -/
structure PropertySpec where
  name : String
  descriptor : Descriptor
  options : PropertyOptions := {}
deriving Inhabited

/-- A property in the form in which it is passed to a definition. -/
inductive Declaration where
  | value (v : Value)
  | spec (s : PropertySpec)

namespace PropertySpec

/-- The property that a declaration gives.  A name that is not a text is taken by its literal. -/
def ofDeclaration : Declaration → Except Problem PropertySpec
  | .spec s => do return { s with descriptor := ← Shorthand.read s.descriptor.toValue }
  | .value (.tuple [name, type]) => do return ⟨name.text, ← Shorthand.read type, {}⟩
  | .value (.tuple [name, type, options]) => do
    let descriptor ← Shorthand.read type
    return ⟨name.text, descriptor, ← PropertyOptions.ofValue options⟩
  | .value v => .error (.notADeclaration v)

/-- The property with the defaults of its object filled in. -/
def withDefaults (options : ObjectOptions) (s : PropertySpec) : PropertySpec :=
  { s with options := s.options.withDefaults options.requiredChoice options.inlineChoice }

/-- The choices of the object leave the name alone. -/
@[simp] theorem name_withDefaults (options : ObjectOptions) (s : PropertySpec) :
    (s.withDefaults options).name = s.name := rfl

/-- The choices of the object leave the type alone. -/
@[simp] theorem descriptor_withDefaults (options : ObjectOptions) (s : PropertySpec) :
    (s.withDefaults options).descriptor = s.descriptor := rfl

/-- A record of a fixed set of fields can hold the property: there is always something to put
    there. -/
def alwaysHasValue (s : PropertySpec) : Bool :=
  s.options.isRequired || s.options.nullable || s.options.hasDefault

/-- A value must be supplied for the property: null is none and there is no default. -/
def needsValue (s : PropertySpec) : Bool := !s.options.nullable && !s.options.hasDefault

/-- The literal of a property. -/
def literal (s : PropertySpec) : String :=
  Literal.object "PropertySpec"
    [("name", Quoted.quote s.name), ("descriptor", s.descriptor.literal),
     ("options", s.options.literal)]

end PropertySpec

/-- The type and options of keys beyond the declared ones, as passed to a definition: nothing, a
    pair of a type and options, or a type alone. -/
def additionalOfValue : Value → Except Problem (Option (Descriptor × PropertyOptions))
  | .null => .ok none
  | .tuple [type, .null] => do return some (← Shorthand.read type, {})
  | .tuple [type, .dict entries] => do
    let descriptor ← Shorthand.read type
    return some (descriptor, ← PropertyOptions.ofEntries entries)
  | type => do return some (← Shorthand.read type, {})

end DataShapes
