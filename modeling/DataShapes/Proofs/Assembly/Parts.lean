import DataShapes.Catalog.Define
import DataShapes.Proofs.Outcome
import DataShapes.Proofs.Registry.Writes

/-!
# Assembly in parts

The assembly of a schema threads a registry through all declarations, but what it does comes in
three parts that do not look at each other: the checks of the declarations, the schema that is
built, and the writes to the registry.  None of the three depends on what the registry holds.

Main definitions:
* `Descriptor.names`: the names in a descriptor;
* `Naming`, `Naming.target`: what names stand for, and the schema that stands for a name;
* `Descriptor.build`: the schema of a descriptor, given what names stand for;
* `Assembly.check`, `Assembly.writes`: the checks and the writes of a descriptor.

Main statements:
* `Assembly.result_schemaOf`: assembly is the checks, the schema and the writes;
* `Assembly.of_check`: what checked descriptors have in common.
-/

namespace DataShapes

namespace Descriptor

/-- Induction over a descriptor: what holds of a descriptor when it holds of its parts holds of
    all. -/
theorem induction_parts {P : Descriptor → Prop} (scalar : ∀ kind, P (.scalar kind))
    (array : ∀ item, P item → P (.array item)) (map : ∀ value, P value → P (.map value))
    (union : ∀ members, (∀ m ∈ members, P m) → P (.union members)) (named : ∀ name, P (.named name))
    (raw : ∀ v, P (.raw v)) : ∀ d, P d
  | .scalar kind => scalar kind
  | .array item => array item (induction_parts scalar array map union named raw item)
  | .map value => map value (induction_parts scalar array map union named raw value)
  | .union members => union members fun m hm =>
    have : sizeOf m < sizeOf members := List.sizeOf_lt_of_mem hm
    induction_parts scalar array map union named raw m
  | .named name => named name
  | .raw v => raw v
termination_by d => sizeOf d

mutual

/-- The names in a descriptor. -/
def names : Descriptor → List String
  | .scalar _ | .raw _ => []
  | .array item => names item
  | .map value => names value
  | .union members => namesOfAll members
  | .named name => [name]

/-- The names in the descriptors of a list. -/
def namesOfAll : List Descriptor → List String
  | [] => []
  | d :: ds => names d ++ namesOfAll ds

end

/-- The names in several descriptors, as one list. -/
theorem namesOfAll_eq (ds : List Descriptor) : namesOfAll ds = ds.flatMap names := by
  induction ds with
  | nil => rfl
  | cons d ds ih => rw [namesOfAll, ih, List.flatMap_cons]

/-- A union has the names of its members. -/
theorem mem_names_union {members : List Descriptor} {name : String} :
    name ∈ (Descriptor.union members).names ↔ ∃ m ∈ members, name ∈ m.names := by
  rw [names, namesOfAll_eq, List.mem_flatMap]

end Descriptor

/-! ### The schema that is built -/

/-- What names stand for in a schema: the titles of shapes for references, and their schemas for
    embedding. -/
structure Naming where
  title : String → String
  schema : String → Schema

/-- The schema that stands for a name: its own schema when it is embedded, else a reference. -/
def Naming.target (n : Naming) (name : String) (o : PropertyOptions) : Schema :=
  if o.isInline then n.schema name else Schema.toTitle (n.title name)

namespace Descriptor

mutual

/-- The schema of a descriptor with the given options. -/
def build (n : Naming) : Descriptor → PropertyOptions → Schema
  | .scalar kind, o =>
    .leaf { kind := .ofScalar kind, nullable := o.nullable, default := o.default,
            enumeration := o.enumeration, pattern := o.pattern, format := o.format,
            description := o.description, sample := o.sample }
  | .array item, o =>
    .node (Assembly.containerFacets .array o) none (some (build n item o.forPart)) none none
  | .map value, o =>
    .node (Assembly.containerFacets .object o) (some []) none (some (build n value o.forPart)) none
  | .union members, o =>
    .node (Assembly.containerFacets .union o) none none none
      (some (distinct (buildAll n members o.forPart)))
  | .named name, o =>
    Assembly.wrap o (if o.isInline then n.schema name else Schema.toTitle (n.title name))
  | .raw _, _ => default

/-- The schemas of the descriptors of a list. -/
def buildAll (n : Naming) : List Descriptor → PropertyOptions → List Schema
  | [], _ => []
  | d :: ds, o => build n d o :: buildAll n ds o

end

/-- The schemas of several descriptors are built one by one. -/
theorem buildAll_eq (n : Naming) (ds : List Descriptor) (o : PropertyOptions) :
    buildAll n ds o = ds.map fun d => d.build n o := by
  induction ds with
  | nil => rfl
  | cons d ds ih => rw [buildAll, ih, List.map_cons]

/-- The parts of a container embed shapes when the container does. -/
@[simp] theorem isInline_forPart (o : PropertyOptions) : o.forPart.isInline = o.isInline := rfl

end Descriptor

/-! ### The checks and the writes -/

namespace Assembly

/-- The finished shape that a name leads to. -/
def shape? (a : Assembly) (name : String) : Option Shape :=
  if name = a.name then none else a.catalog.bind (·.shapes.get? name)

/-- What names stand for in the schema that is assembled. -/
def naming (a : Assembly) : Naming where
  title name := ((a.shape? name).map Shape.title).getD a.title
  schema name := ((a.shape? name).map Shape.schema).getD default

/-- A name is the one that is being defined, or it leads to a finished shape. -/
def knows (a : Assembly) (name : String) : Prop := name = a.name ∨ (a.shape? name).isSome = true

/-- What a name leads to: the shape that is being defined, or a finished one. -/
theorem find_eq_ok_iff (a : Assembly) (name : String) (t : Target) :
    a.scope.find name = .ok t ↔
      (name = a.name ∧ t = .unfinished) ∨ ∃ s, a.shape? name = some s ∧ t = .shape s := by
  unfold scope Scope.find shape?
  by_cases h : name = a.name
  · simp [h, eq_comm]
  · simp only [h, if_false, false_and, false_or]
    cases a.catalog.bind (·.shapes.get? name) with
    | none => simp
    | some s => simp [eq_comm]

mutual

/-- The checks of a descriptor, parts behind what they are part of. -/
def check (a : Assembly) (property : String) : Descriptor → PropertyOptions → Except Problem Unit
  | .scalar kind, o => (checkProperty a.scope property (.scalar kind) o).result
  | .array item, o => do
    (checkProperty a.scope property (.array item) o).result
    check a property item o.forPart
  | .map value, o => do
    (checkProperty a.scope property (.map value) o).result
    check a property value o.forPart
  | .union members, o => do
    (checkProperty a.scope property (.union members) o).result
    checkAll a property members o.forPart
  | .named name, o => do
    (checkProperty a.scope property (.named name) o).result
    match ← a.scope.find name with
    | .shape _ => .ok ()
    | _ => if o.isInline then .error (.inlinedIntoItself property name) else .ok ()
  | .raw v, o => do
    (checkProperty a.scope property (.raw v) o).result
    .error (.unknownDescriptor (.raw v) property)

/-- The checks of the descriptors of a list. -/
def checkAll (a : Assembly) (property : String) :
    List Descriptor → PropertyOptions → Except Problem Unit
  | [], _ => .ok ()
  | d :: ds, o => do
    check a property d o
    checkAll a property ds o

end

/-- What a name writes: the reference to its shape, or all that its shape brings along. -/
def writesOfName (a : Assembly) (name : String) (o : PropertyOptions) : Writes :=
  match a.shape? name with
  | some t =>
    if o.isInline then ⟨[], [(t.title, t.name)]⟩ ++ t.registry.content
    else ⟨[(Schema.definitionsPath ++ t.title, t.name)], []⟩
  | none => ⟨[(Schema.definitionsPath ++ a.title, a.name)], []⟩

mutual

/-- The writes of a descriptor. -/
def writes (a : Assembly) : Descriptor → PropertyOptions → Writes
  | .scalar _, _ | .raw _, _ => {}
  | .array item, o => writes a item o.forPart
  | .map value, o => writes a value o.forPart
  | .union members, o => writesOfAll a members o.forPart
  | .named name, o => writesOfName a name o

/-- The writes of the descriptors of a list. -/
def writesOfAll (a : Assembly) : List Descriptor → PropertyOptions → Writes
  | [], _ => {}
  | d :: ds, o => writes a d o ++ writesOfAll a ds o

end

/-- A property that names a shape: the reference or the embedded schema, and what it writes. -/
theorem result_namedSchema (a : Assembly) (property name : String) (o : PropertyOptions)
    {r : Registry} (h : r.isSealed = false) :
    (a.namedSchema property name o r).result =
      (a.scope.find name).bind fun t =>
        match t with
        | .shape _ =>
          .ok ((Descriptor.named name).build a.naming o, r.write (a.writesOfName name o))
        | _ =>
          if o.isInline then .error (.inlinedIntoItself property name)
          else .ok ((Descriptor.named name).build a.naming o, r.write (a.writesOfName name o)) := by
  unfold namedSchema
  rw [Noted.result_bind, Noted.result_liftM]
  cases hfind : a.scope.find name with
  | error p => rfl
  | ok t =>
    have ht := (a.find_eq_ok_iff name t).1 hfind
    rcases ht with ⟨hname, rfl⟩ | ⟨s, hs, rfl⟩
    · -- The shape that is being defined has no schema yet: it can only be referred to.
      have hself : a.shape? name = none := by simp [shape?, hname]
      simp only [Except.bind]
      split
      · rfl
      · rename_i hinline
        rw [Noted.result_bind, Registry.record_eq_write h]
        simp [Except.bind, writesOfName, hself, Descriptor.build, naming, hinline]
    · simp only [Except.bind]
      split
      · rename_i hinline
        rw [Noted.result_bind, Registry.recordInline_eq_write h]
        simp only [Except.bind, Noted.result_bind]
        rw [Registry.result_merge (by simpa using h)]
        simp only [Noted.result_pure, writesOfName, hs, hinline, if_true, Registry.write_append,
          Descriptor.build, naming, Option.map_some, Option.getD_some]
      · rename_i hinline
        rw [Noted.result_bind, Registry.record_eq_write h]
        simp [Except.bind, writesOfName, hs, hinline, Descriptor.build, naming]

/-- The checks of all members of a union. -/
theorem checkAll_eq_ok_iff (a : Assembly) (property : String) (ds : List Descriptor)
    (o : PropertyOptions) :
    a.checkAll property ds o = .ok () ↔ ∀ d ∈ ds, a.check property d o = .ok () := by
  induction ds with
  | nil => simp [checkAll]
  | cons d ds ih =>
    rw [checkAll, Outcome.do_eq_ok_iff, List.forall_mem_cons, ← ih]
    constructor
    · rintro ⟨⟨⟩, hd, hds⟩
      exact ⟨hd, hds⟩
    · rintro ⟨hd, hds⟩
      exact ⟨(), hd, hds⟩

/-- Assembly is the checks, the schema that is built, and the writes; none of the three looks at
    what the registry holds. -/
theorem result_schemaOf (a : Assembly) (property : String) (d : Descriptor) (o : PropertyOptions)
    {r : Registry} (h : r.isSealed = false) :
    (a.schemaOf property d o r).result =
      (a.check property d o).map fun _ => (d.build a.naming o, r.write (a.writes d o)) := by
  induction d using Descriptor.induction_parts generalizing o r with
  | scalar kind =>
    rw [schemaOf, check, Noted.result_bind]
    cases (checkProperty a.scope property (.scalar kind) o).result <;> rfl
  | array item ih =>
    rw [schemaOf, check, Noted.result_bind]
    cases (checkProperty a.scope property (.array item) o).result with
    | error p => rfl
    | ok u =>
      show (Noted.result _) = (a.check property item o.forPart).map _
      rw [Noted.result_bind, ih _ h]
      cases a.check property item o.forPart <;> rfl
  | map value ih =>
    rw [schemaOf, check, Noted.result_bind]
    cases (checkProperty a.scope property (.map value) o).result with
    | error p => rfl
    | ok u =>
      show (Noted.result _) = (a.check property value o.forPart).map _
      rw [Noted.result_bind, ih _ h]
      cases a.check property value o.forPart <;> rfl
  | union members ih =>
    -- The members are assembled one after the other, so what is said of them is said of every end of
    -- the list, and of the registry that the members before it leave.
    have hall : ∀ (ds : List Descriptor) (o : PropertyOptions) (r : Registry),
        (∀ d ∈ ds, d ∈ members) → r.isSealed = false →
        (a.schemasOf property ds o r).result = (a.checkAll property ds o).map
          fun _ => (Descriptor.buildAll a.naming ds o, r.write (a.writesOfAll ds o)) := by
      intro ds
      induction ds with
      | nil => intro o r _ _; rfl
      | cons d ds ihds =>
        intro o r hmem hr
        rw [schemasOf, checkAll, Noted.result_bind, ih d (hmem d List.mem_cons_self) o hr]
        cases a.check property d o with
        | error p => rfl
        | ok u =>
          show (Noted.result _) = (a.checkAll property ds o).map _
          rw [Noted.result_bind,
            ihds o _ (fun e he => hmem e (List.mem_cons_of_mem _ he)) (by simpa using hr)]
          cases a.checkAll property ds o with
          | error p => rfl
          | ok u =>
            simp only [Except.map, Except.bind, Noted.result_pure, Descriptor.buildAll, writesOfAll,
              Registry.write_append]
    rw [schemaOf, check, Noted.result_bind]
    cases (checkProperty a.scope property (.union members) o).result with
    | error p => rfl
    | ok u =>
      show (Noted.result _) = (a.checkAll property members o.forPart).map _
      rw [Noted.result_bind, hall members _ r (fun _ hd => hd) h]
      cases a.checkAll property members o.forPart <;> rfl
  | named name =>
    rw [schemaOf, check, Noted.result_bind]
    cases (checkProperty a.scope property (.named name) o).result with
    | error p => rfl
    | ok u =>
      show (Noted.result _) = ((a.scope.find name).bind _).map _
      simp only [a.result_namedSchema property name o h]
      cases a.scope.find name with
      | error p => rfl
      | ok t =>
        cases t with
        | shape s => rfl
        | nothing => simp only [Except.bind]; split <;> rfl
        | unfinished => simp only [Except.bind]; split <;> rfl
  | raw v =>
    rw [schemaOf, check, Noted.result_bind]
    cases (checkProperty a.scope property (.raw v) o).result <;> rfl

/-- What checked descriptors have in common: they are well formed, their names lead somewhere, and
    the shape that is being defined is not embedded. -/
theorem of_check (a : Assembly) {property : String} {d : Descriptor} {o : PropertyOptions}
    (h : a.check property d o = .ok ()) :
    d.WellFormed = true ∧ ∀ name ∈ d.names, a.knows name ∧ (o.isInline = true → name ≠ a.name) := by
  induction d using Descriptor.induction_parts generalizing o with
  | scalar kind => exact ⟨rfl, by simp [Descriptor.names]⟩
  | array item ih =>
    rw [check, Outcome.do_eq_ok_iff] at h
    obtain ⟨-, -, h⟩ := h
    exact ih (o := o.forPart) h
  | map value ih =>
    rw [check, Outcome.do_eq_ok_iff] at h
    obtain ⟨-, -, h⟩ := h
    exact ih (o := o.forPart) h
  | union members ih =>
    rw [check, Outcome.do_eq_ok_iff] at h
    obtain ⟨-, -, h⟩ := h
    rw [checkAll_eq_ok_iff] at h
    constructor
    · rw [Descriptor.WellFormed, Descriptor.allWellFormed_iff]
      exact fun m hm => (ih m hm (h m hm)).1
    · intro name hname
      obtain ⟨m, hm, hname⟩ := Descriptor.mem_names_union.1 hname
      exact (ih m hm (h m hm)).2 name hname
  | named name =>
    rw [check, Outcome.do_eq_ok_iff] at h
    obtain ⟨-, -, h⟩ := h
    obtain ⟨t, ht, h⟩ := Outcome.do_eq_ok_iff.1 h
    refine ⟨rfl, ?_⟩
    intro other hother
    rw [Descriptor.names, List.mem_singleton] at hother
    subst hother
    rcases (a.find_eq_ok_iff other t).1 ht with ⟨hself, rfl⟩ | ⟨s, hs, rfl⟩
    · -- The shape that is being defined: embedding it is refused.
      refine ⟨.inl hself, fun hinline => ?_⟩
      simp [hinline] at h
    · refine ⟨.inr (by simp [hs]), fun _ hself => ?_⟩
      simp [shape?, hself] at hs
  | raw v =>
    rw [check, Outcome.do_eq_ok_iff] at h
    obtain ⟨-, -, h⟩ := h
    simp at h

end Assembly

end DataShapes
