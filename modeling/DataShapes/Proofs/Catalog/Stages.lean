import DataShapes.Catalog.History
import DataShapes.Proofs.Assembly.Objects

/-!
# Definitions in stages

A definition reads its arguments, assembles the schema of the shape, reads the type signature off
it and registers the shape.  Here each stage is a definition of its own, and a definition succeeds
exactly when all of its stages do.

Main definitions:
* `ObjectArguments`, `TypeArguments`: what the arguments of a definition say;
* `ObjectArguments.Accepted`, `TypeArguments.Accepted`: the assembly of the schema succeeds;
* `ObjectArguments.shape`, `TypeArguments.shape`: the finished shape.

Main statements:
* `Catalog.defineObject_eq_ok_iff`, `Catalog.defineType_eq_ok_iff`: when a definition succeeds, and
  what it then registers.
-/

namespace DataShapes

/-! ### Type shapes -/

/-- What the arguments of the definition of a type shape say. -/
structure TypeArguments where
  name : String
  title : String
  descriptor : Descriptor
  options : PropertyOptions

namespace TypeArguments

variable (args : TypeArguments) (c : Catalog)

/-- The assembly of the shape in a catalog. -/
def assembly : Assembly := ⟨args.name, args.title, some c⟩

/-- The assembly of the schema succeeds. -/
def Accepted : Prop :=
  (args.assembly c).check args.name args.descriptor args.options = .ok ()

/-- The assembled schema, before it takes its title. -/
def built : Schema := args.descriptor.build (args.assembly c).naming args.options

/-- The registry of the assembly. -/
def registry : Registry :=
  ({ owner := some args.name } : Registry).write
    ((args.assembly c).writes args.descriptor args.options)

/-- The schema of the shape. -/
def schema : Schema := Catalog.titledSchema args.title args.descriptor (args.built c)

/-- The type signature of the shape. -/
def signature : Except Problem TypeExpr :=
  TypeExpr.ofNormalForm (args.registry c).close (args.schema c)

/-- The finished shape. -/
def shape (signature : TypeExpr) : Shape where
  name := args.name
  title := args.title
  schema := args.schema c
  registry := (args.registry c).close
  signature := signature
  body := .type args.descriptor args.options

/-- The assembly of the schema, as it is written in a definition. -/
theorem schemaOf_eq_ok_iff {s : Schema} {r : Registry} :
    ((args.assembly c).schemaOf args.name args.descriptor args.options
        { owner := some args.name }).result = .ok (s, r) ↔
      args.Accepted c ∧ s = args.built c ∧ r = args.registry c := by
  rw [Assembly.result_schemaOf _ _ _ _ rfl, Outcome.map_eq_ok_iff]
  constructor
  · rintro ⟨⟨⟩, hcheck, heq⟩
    obtain ⟨rfl, rfl⟩ := Prod.mk.inj heq
    exact ⟨hcheck, rfl, rfl⟩
  · rintro ⟨hcheck, rfl, rfl⟩
    exact ⟨(), hcheck, rfl⟩

end TypeArguments

/-! ### Object shapes -/

/-- What the arguments of the definition of an object shape say. -/
structure ObjectArguments where
  name : String
  title : String
  options : ObjectOptions
  specs : List PropertySpec
  additional : Option (Descriptor × PropertyOptions)
  parent : Option Shape

namespace ObjectArguments

variable (args : ObjectArguments) (c : Catalog)

/-- The assembly of the shape in a catalog. -/
def assembly : Assembly := ⟨args.name, args.title, some c⟩

/-- The declared properties, with the defaults of the object. -/
def own : List PropertySpec := args.specs.map (·.withDefaults args.options)

/-- All properties: those that are taken over and the declared ones. -/
def all : List PropertySpec :=
  Inheritance.merge PropertySpec.name ((args.parent.map Shape.specs).getD []) args.own

/-- The assembly of the schema succeeds. -/
structure Accepted : Prop where
  names : (args.specs.map PropertySpec.name).Nodup
  record : checkRecord args.title args.all args.additional args.options = .ok ()
  specs : (args.assembly c).AcceptsSpecs args.own
  additional : (args.assembly c).AcceptsAdditional args.additional
  parent : ∀ p, args.parent = some p → p.schema.isObject = true

/-- The schema of the shape. -/
def schema : Schema :=
  (args.assembly c).objectBuilt args.own args.additional args.options args.parent

/-- The registry of the assembly. -/
def registry : Registry :=
  ({ owner := some args.name } : Registry).write
    ((args.assembly c).objectWrites args.own args.additional args.parent)

/-- The type signature of the shape. -/
def signature : Except Problem TypeExpr :=
  TypeExpr.ofObject (args.registry c).close (args.schema c) args.options (some args.name)
    (args.parent.map Shape.inherited)

/-- The finished shape. -/
def shape (signature : TypeExpr) : Shape where
  name := args.name
  title := args.title
  schema := args.schema c
  registry := (args.registry c).close
  signature := signature
  body := .object args.all args.additional args.options (args.parent.map Shape.name)

/-- The assembly of the schema, as it is written in a definition. -/
theorem objectSchema_eq_ok_iff {s : Schema} {r : Registry} :
    ((args.assembly c).objectSchema args.name args.specs args.additional args.options args.parent
        { owner := some args.name }).result = .ok (s, r) ↔
      args.Accepted c ∧ s = args.schema c ∧ r = args.registry c := by
  rw [Assembly.objectSchema_eq_ok_iff _ rfl]
  refine and_congr_left fun _ => ?_
  constructor
  · rintro ⟨hnames, hrecord, hspecs, hadditional, hparent⟩
    exact ⟨hnames, hrecord, hspecs, hadditional, hparent⟩
  · rintro ⟨hnames, hrecord, hspecs, hadditional, hparent⟩
    exact ⟨hnames, hrecord, hspecs, hadditional, hparent⟩

/-- The defaults of an object change no name. -/
theorem names_own : args.own.map PropertySpec.name = args.specs.map PropertySpec.name := by
  rw [own, List.map_map]
  rfl

/-- The properties of the schema are those of the object with those of the extended shape. -/
theorem properties_schema :
    (args.schema c).properties = (args.assembly c).objectProperties args.own args.parent := by
  rw [schema, Assembly.objectBuilt_eq]
  rfl

/-- The required names of an object: those that are taken over, and its own. -/
theorem required_schema (args : ObjectArguments) (c : Catalog) :
    (args.schema c).required = Inheritance.mergeRequired (args.own.map PropertySpec.name)
      ((args.parent.map Shape.required).getD [])
      ((args.own.filter (·.options.isRequired)).map PropertySpec.name) := by
  rw [schema, Assembly.objectBuilt_eq]
  rfl

/-- The properties of an accepted object have distinct keys. -/
theorem nodup_keys_built {args : ObjectArguments} {c : Catalog} (ha : args.Accepted c) :
    (buildProperties (args.assembly c).naming args.own).keys.Nodup := by
  rw [Assembly.keys_buildProperties, names_own]
  exact ha.names

end ObjectArguments

/-! ### Definitions -/

namespace Catalog

/-- Read the arguments of the definition of a type shape. -/
def typeArguments (c : Catalog) (d : TypeDeclaration) : Except Problem TypeArguments := do
  let name ← c.newName d.name
  let descriptor ← Shorthand.read d.type
  let options ← PropertyOptions.ofEntries d.options
  return ⟨name, titleOr name d.title, descriptor, options⟩

/-- Read the arguments of the definition of an object shape. -/
def objectArguments (c : Catalog) (elsewhere : ShapeHandle → Option Shape) (d : ObjectDeclaration) :
    Except Problem ObjectArguments := do
  let name ← c.newName d.name
  let options ← ObjectOptions.ofEntries d.options
  let specs ← d.properties.mapM PropertySpec.ofDeclaration
  let additional ← additionalOfValue d.additional
  let parent ← c.extended elsewhere name options.base
  return ⟨name, titleOr name d.title, options, specs, additional, parent⟩

/-- The arguments of a type definition are read one by one. -/
theorem typeArguments_eq_ok_iff {c : Catalog} {d : TypeDeclaration} {args : TypeArguments} :
    c.typeArguments d = .ok args ↔
      c.newName d.name = .ok args.name ∧ Shorthand.read d.type = .ok args.descriptor
        ∧ PropertyOptions.ofEntries d.options = .ok args.options
        ∧ args.title = titleOr args.name d.title := by
  unfold typeArguments
  simp only [Outcome.do_eq_ok_iff, Outcome.pure_eq_ok_iff]
  constructor
  · rintro ⟨name, hname, descriptor, hdescriptor, options, hoptions, rfl⟩
    exact ⟨hname, hdescriptor, hoptions, rfl⟩
  · rintro ⟨hname, hdescriptor, hoptions, htitle⟩
    exact ⟨_, hname, _, hdescriptor, _, hoptions, by rw [← htitle]⟩

/-- So are those of an object definition; the extended shape is found last. -/
theorem objectArguments_eq_ok_iff {c : Catalog} {elsewhere : ShapeHandle → Option Shape}
    {d : ObjectDeclaration} {args : ObjectArguments} :
    c.objectArguments elsewhere d = .ok args ↔
      c.newName d.name = .ok args.name ∧ ObjectOptions.ofEntries d.options = .ok args.options
        ∧ d.properties.mapM PropertySpec.ofDeclaration = .ok args.specs
        ∧ additionalOfValue d.additional = .ok args.additional
        ∧ c.extended elsewhere args.name args.options.base = .ok args.parent
        ∧ args.title = titleOr args.name d.title := by
  unfold objectArguments
  simp only [Outcome.do_eq_ok_iff, Outcome.pure_eq_ok_iff]
  -- The stages fail one by one, in the order in which they stand here.
  constructor
  · rintro ⟨name, hname, options, hoptions, specs, hspecs, additional, hadditional, parent, hparent,
      rfl⟩
    exact ⟨hname, hoptions, hspecs, hadditional, hparent, rfl⟩
  · rintro ⟨hname, hoptions, hspecs, hadditional, hparent, htitle⟩
    exact ⟨_, hname, _, hoptions, _, hspecs, _, hadditional, _, hparent, by rw [← htitle]⟩

/-- The last steps of the definition of an object shape: its properties, its signature and its place
    in the catalog. -/
theorem finish_eq_ok_iff {c : Catalog} (args : ObjectArguments) {x : Catalog × Shape} :
    ((match args.parent with
      | none => do
        let all ← pure args.own
        let t ← (args.signature c : Except Problem TypeExpr)
        c.register { name := args.name, title := args.title, schema := args.schema c,
                     registry := (args.registry c).close, signature := t,
                     body := .object all args.additional args.options (args.parent.map Shape.name) }
      | some p => do
        let all ← Inheritance.mergeSpecs p.specs args.own
        let t ← (args.signature c : Except Problem TypeExpr)
        c.register { name := args.name, title := args.title, schema := args.schema c,
                     registry := (args.registry c).close, signature := t,
                     body :=
                       .object all args.additional args.options (args.parent.map Shape.name) } :
      Noted (Catalog × Shape))).result = .ok x ↔
      ∃ t, args.signature c = .ok t ∧ x = (c.add (args.shape c t), args.shape c t) := by
  obtain ⟨name, title, options, specs, additional, parent⟩ := args
  -- With a parent the inherited properties are merged in; both branches register the same record.
  cases parent with
  | none =>
    simp [Outcome.bind_eq_ok_iff, ObjectArguments.shape, ObjectArguments.all, @eq_comm _ x]
  | some p =>
    simp [Outcome.bind_eq_ok_iff, ObjectArguments.shape, ObjectArguments.all, @eq_comm _ x]

/-- A type shape is defined exactly when its arguments are in order, its schema is assembled and its
    signature is read off; this is what is then registered. -/
theorem defineType_eq_ok_iff {c c' : Catalog} {d : TypeDeclaration} {s : Shape} :
    (c.defineType d).result = .ok (c', s) ↔
      ∃ args t, c.typeArguments d = .ok args ∧ args.Accepted c ∧ args.signature c = .ok t
        ∧ s = args.shape c t ∧ c' = c.add s := by
  unfold defineType
  simp only [Noted.result_bind, Noted.result_liftM, Noted.result_onDefinitionProblem,
    result_register, Outcome.bind_eq_ok_iff, Except.ok.injEq, Prod.mk.injEq]
  constructor
  · rintro ⟨name, hname, descriptor, hdescriptor, options, hoptions, ⟨s₀, r⟩, hs, t, ht, rfl, rfl⟩
    have hargs : c.typeArguments d = .ok ⟨name, titleOr name d.title, descriptor, options⟩ :=
      typeArguments_eq_ok_iff.2 ⟨hname, hdescriptor, hoptions, rfl⟩
    obtain ⟨haccepted, rfl, rfl⟩ := (TypeArguments.schemaOf_eq_ok_iff ⟨name, _, _, _⟩ c).1 hs
    exact ⟨_, t, hargs, haccepted, ht, rfl, rfl⟩
  · -- The title of the arguments is the one that the declaration gives.
    rintro ⟨⟨name, title, descriptor, options⟩, t, hargs, haccepted, ht, rfl, rfl⟩
    obtain ⟨hname, hdescriptor, hoptions, htitle⟩ := typeArguments_eq_ok_iff.1 hargs
    simp only at htitle
    subst htitle
    exact ⟨name, hname, descriptor, hdescriptor, options, hoptions, (_, _),
      (TypeArguments.schemaOf_eq_ok_iff ⟨name, _, _, _⟩ c).2 ⟨haccepted, rfl, rfl⟩, t, ht, rfl, rfl⟩

/-- An object shape is defined exactly when its arguments are in order, its schema is assembled and
    its signature is read off; this is what is then registered. -/
theorem defineObject_eq_ok_iff {c c' : Catalog} {elsewhere : ShapeHandle → Option Shape}
    {d : ObjectDeclaration} {s : Shape} :
    (c.defineObject elsewhere d).result = .ok (c', s) ↔
      ∃ args t, c.objectArguments elsewhere d = .ok args ∧ args.Accepted c
        ∧ args.signature c = .ok t ∧ s = args.shape c t ∧ c' = c.add s := by
  unfold defineObject
  simp only [Noted.result_bind, Noted.result_liftM, Noted.result_onDefinitionProblem,
    Outcome.bind_eq_ok_iff]
  constructor
  · rintro ⟨name, hname, options, hoptions, specs, hspecs, additional, hadditional, parent, hparent,
      ⟨s₀, r⟩, hs, h⟩
    have hargs : c.objectArguments elsewhere d
        = .ok ⟨name, titleOr name d.title, options, specs, additional, parent⟩ :=
      objectArguments_eq_ok_iff.2 ⟨hname, hoptions, hspecs, hadditional, hparent, rfl⟩
    -- Assembling has one outcome for accepted arguments, so the schema and the registry are
    -- determined.
    obtain ⟨haccepted, rfl, rfl⟩ :=
      (ObjectArguments.objectSchema_eq_ok_iff
        ⟨name, titleOr name d.title, options, specs, additional, parent⟩ c).1 hs
    obtain ⟨t, ht, h⟩ :=
      (finish_eq_ok_iff ⟨name, titleOr name d.title, options, specs, additional, parent⟩).1 h
    obtain ⟨rfl, rfl⟩ := Prod.mk.inj h
    exact ⟨_, t, hargs, haccepted, ht, rfl, rfl⟩
  · rintro ⟨⟨name, title, options, specs, additional, parent⟩, t, hargs, haccepted, ht, rfl, rfl⟩
    obtain ⟨hname, hoptions, hspecs, hadditional, hparent, htitle⟩ :=
      objectArguments_eq_ok_iff.1 hargs
    simp only at htitle
    subst htitle
    refine ⟨name, hname, options, hoptions, specs, hspecs, additional, hadditional, parent, hparent,
      (_, _), (ObjectArguments.objectSchema_eq_ok_iff ⟨name, _, _, _, _, _⟩ c).2
        ⟨haccepted, rfl, rfl⟩, ?_⟩
    exact (finish_eq_ok_iff ⟨name, _, options, specs, additional, parent⟩).2 ⟨t, ht, rfl⟩

/-- What a definition whose arguments are known ends with. -/
theorem defineObject_eq_ok_iff_of_arguments {c : Catalog} {elsewhere : ShapeHandle → Option Shape}
    {d : ObjectDeclaration} {args : ObjectArguments} (h : c.objectArguments elsewhere d = .ok args)
    {x : Catalog × Shape} :
    (c.defineObject elsewhere d).result = .ok x ↔
      args.Accepted c ∧ ∃ t, args.signature c = .ok t
        ∧ x = (c.add (args.shape c t), args.shape c t) := by
  obtain ⟨c', s⟩ := x
  rw [defineObject_eq_ok_iff]
  constructor
  · rintro ⟨args', t, hargs', haccepted, ht, rfl, rfl⟩
    rw [h] at hargs'
    cases hargs'
    exact ⟨haccepted, t, ht, rfl⟩
  · rintro ⟨haccepted, t, ht, heq⟩
    obtain ⟨rfl, rfl⟩ := Prod.mk.inj heq
    exact ⟨args, t, h, haccepted, ht, rfl, rfl⟩

end Catalog

end DataShapes
