import DataShapes.Inheritance
import DataShapes.ObjectRules
import DataShapes.PropertyRules

/-!
# Assembly of schemas

The schema of a shape is assembled from its declarations.  Every reference that is emitted on the
way is recorded in the registry of the definition; an embedded shape brings the references of its
own schema along.  The declared structure is kept: unions stay nested here.

Main definitions:
* `Assembly`: what the assembly of one definition knows;
* `Assembly.schemaOf`: the schema of a property;
* `Assembly.objectSchema`: the schema of an object shape.
-/

namespace DataShapes

/-- What the assembly of one definition knows: the shape that is being defined, and the catalog. -/
structure Assembly where
  name : String
  title : String
  catalog : Option Catalog := none
deriving Inhabited

namespace Assembly

/-- Where the names in the descriptors of the definition lead. -/
def scope (a : Assembly) : Scope := .defining a.name a.catalog

/-- A schema that admits what another one admits, with the default and the admission of null that
    a reference or an embedded schema cannot take itself. -/
def wrap (o : PropertyOptions) (s : Schema) : Schema :=
  if o.hasDefault || o.nullable then
    .node { kind := .union, nullable := o.nullable, default := o.default } none none none (some [s])
  else s

/-- The schema of a property that names a shape: a reference to it, or its own schema when it is
    embedded. -/
def namedSchema (a : Assembly) (property name : String) (o : PropertyOptions) (r : Registry) :
    Noted (Schema × Registry) := do
  match ← a.scope.find name with
  | .shape target =>
    if o.isInline then
      -- An embedded shape brings along what its own schema refers to.
      let r ← r.recordInline target.title target.name
      let r ← r.merge target.registry
      return (wrap o target.schema, r)
    else
      let r ← r.record (Schema.definitionsPath ++ target.title) target.name
      return (wrap o (Schema.toTitle target.title), r)
  -- The only name that is found without a shape is that of the shape that is being defined.
  | _ =>
    if o.isInline then Noted.fail (.inlinedIntoItself property name)
    else
      let r ← r.record (Schema.definitionsPath ++ a.title) a.name
      return (wrap o (Schema.toTitle a.title), r)

/-- The plain keywords of a container. -/
def containerFacets (kind : SchemaKind) (o : PropertyOptions) : Facets :=
  { kind := kind, nullable := o.nullable, description := o.description, default := o.default }

mutual

/-- The schema of a property with the given type and options. -/
def schemaOf (a : Assembly) (property : String) :
    Descriptor → PropertyOptions → Registry → Noted (Schema × Registry)
  | .scalar kind, o, r => do
    checkProperty a.scope property (.scalar kind) o
    return (.leaf { kind := .ofScalar kind, nullable := o.nullable, default := o.default,
                    enumeration := o.enumeration, pattern := o.pattern, format := o.format,
                    description := o.description, sample := o.sample }, r)
  -- A container is checked with all options of the property, and its parts with those that hold for
  -- parts.
  | .array item, o, r => do
    checkProperty a.scope property (.array item) o
    let (s, r) ← schemaOf a property item o.forPart r
    return (.node (containerFacets .array o) none (some s) none none, r)
  | .map value, o, r => do
    checkProperty a.scope property (.map value) o
    let (s, r) ← schemaOf a property value o.forPart r
    return (.node (containerFacets .object o) (some []) none (some s) none, r)
  | .union members, o, r => do
    checkProperty a.scope property (.union members) o
    let (ss, r) ← schemasOf a property members o.forPart r
    return (.node (containerFacets .union o) none none none (some (distinct ss)), r)
  | .named name, o, r => do
    checkProperty a.scope property (.named name) o
    namedSchema a property name o r
  | .raw v, o, r => do
    -- A wrong option is reported before the descriptor that is none.
    let _ := r
    checkProperty a.scope property (.raw v) o
    Noted.fail (.unknownDescriptor (.raw v) property)

/-- The schemas of union members, in order. -/
def schemasOf (a : Assembly) (property : String) :
    List Descriptor → PropertyOptions → Registry → Noted (List Schema × Registry)
  | [], _, r => pure ([], r)
  | d :: ds, o, r => do
    let (s, r) ← schemaOf a property d o r
    let (ss, r) ← schemasOf a property ds o r
    return (s :: ss, r)

end

/-- The schemas of the properties of an object, in order. -/
def propertySchemas (a : Assembly) : List PropertySpec → Registry → Noted (Table Schema × Registry)
  | [], r => pure ([], r)
  | s :: specs, r => do
    let (first, r) ← a.schemaOf s.name s.descriptor s.options r
    let (rest, r) ← a.propertySchemas specs r
    return ((s.name, first) :: rest, r)

/-- The schema of values under keys beyond the properties. -/
def additionalSchema (a : Assembly) (additional : Option (Descriptor × PropertyOptions))
    (r : Registry) : Noted (Option Schema × Registry) :=
  match additional with
  | none => pure (none, r)
  | some (d, o) => do
    let (s, r) ← a.schemaOf "additional_properties" d o r
    return (some s, r)

/-- The schema of an object before it takes anything over. -/
def ownSchema (a : Assembly) (specs : List PropertySpec) (properties : Table Schema)
    (additional : Option Schema) (options : ObjectOptions) : Schema :=
  .node
    { kind := .object, title := some a.title, nullable := options.nullable,
      required := some ((specs.filter (·.options.isRequired)).map PropertySpec.name),
      description := options.description, sample := options.sample,
      representation := some options.representation }
    (some properties) none additional none

/-- Take over the properties of the extended shape, and its references. -/
def inheritFrom (name : String) (parent : Option Shape) (s : Schema) (r : Registry) :
    Noted (Schema × Registry) :=
  match parent with
  | none => pure (s, r)
  | some parent => do
    Noted.note .debug .assembler ("Extending '" ++ name ++ "' from '" ++ parent.name ++ "'")
    let s ← Inheritance.extend s (some parent.schema)
    let r ← r.merge parent.registry
    return (s, r)

/-- The schema of the object shape `name`, with the properties that it takes over from the shape
    that it extends. -/
def objectSchema (a : Assembly) (name : String) (specs : List PropertySpec)
    (additional : Option (Descriptor × PropertyOptions)) (options : ObjectOptions)
    (parent : Option Shape) (r : Registry) : Noted (Schema × Registry) := do
  checkDistinctNames a.title specs
  let own := specs.map (·.withDefaults options)
  let all ← Inheritance.mergeSpecs ((parent.map Shape.specs).getD []) own
  checkRecord a.title all additional options
  let (properties, r) ← a.propertySchemas own r
  let (extra, r) ← a.additionalSchema additional r
  inheritFrom name parent (a.ownSchema own properties extra options) r

end Assembly

end DataShapes
