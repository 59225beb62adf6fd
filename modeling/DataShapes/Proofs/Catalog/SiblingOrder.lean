import DataShapes.Proofs.Assembly.Order
import DataShapes.Proofs.Catalog.Generation
import DataShapes.Proofs.TypeExpr.Consults
import Mathlib.Data.List.Perm.Basic

/-!
# The order of sibling properties

Declaring the properties of an object in another order changes neither whether the definition
succeeds nor the schemas of the properties nor which keys are required.  The types of its fields may
change: the registry is filled property by property, so when two properties refer to different
shapes with one title, the last of them decides for both.  The types are independent of the order
exactly when no such two properties matter.

Main definitions:
* `Shape.field?`: a field in the signature of an object shape;
* `ObjectArguments.Unambiguous`: properties that write a key which a type looks up agree on it.

Main statements:
* `Catalog.Reached.sibling_order`: what the order of properties changes, and when it changes
  nothing.
-/

namespace DataShapes

/-- A field of the record in the signature of an object shape. -/
def Shape.field? (s : Shape) (name : String) : Option FieldType :=
  s.signature.record?.bind (·.field? name)

namespace ObjectArguments

variable {args : ObjectArguments} {c : Catalog} {specs : List PropertySpec}

/-- The arguments with other properties. -/
def withSpecs (args : ObjectArguments) (specs : List PropertySpec) : ObjectArguments :=
  { args with specs := specs }

/-! ### What the order does not change -/

/-- Properties that are declared in another order get the choices of the object in that order. -/
theorem own_perm (h : specs.Perm args.specs) : (args.withSpecs specs).own.Perm args.own :=
  h.map _

/-- The schema of an object is assembled in every order of its properties or in none. -/
theorem accepted_perm (h : specs.Perm args.specs) (ha : args.Accepted c) :
    (args.withSpecs specs).Accepted c where
  names := (h.map _).nodup_iff.2 ha.names
  record := by
    have hnodup : ((args.withSpecs specs).own.map PropertySpec.name).Nodup := by
      rw [names_own]
      exact (h.map _).nodup_iff.2 ha.names
    -- The check of the record asks each property on its own.
    have hall : (args.withSpecs specs).all.Perm args.all :=
      Inheritance.merge_perm (own_perm h) hnodup _
    refine (checkRecord_eq_ok_iff _ _ _ _).2 fun hfixed => ?_
    obtain ⟨hadditional, hvalue⟩ := (checkRecord_eq_ok_iff _ _ _ _).1 ha.record hfixed
    exact ⟨hadditional, fun s hs => hvalue s (hall.mem_iff.1 hs)⟩
  specs s hs := ha.specs s ((own_perm h).mem_iff.1 hs)
  additional := ha.additional
  parent := ha.parent

/-- The schema of a property is the same in every order. -/
theorem get?_properties_perm (h : specs.Perm args.specs) (ha : args.Accepted c) (name : String) :
    ((args.withSpecs specs).schema c).properties.get? name
      = (args.schema c).properties.get? name := by
  rw [properties_schema, properties_schema]
  exact Inheritance.get?_merge_perm ((own_perm h).map _) (nodup_keys_built (accepted_perm h ha))
    name

/-- The same keys are required in every order. -/
theorem contains_required_perm (h : specs.Perm args.specs) (name : String) :
    ((args.withSpecs specs).schema c).required.contains name
      = (args.schema c).required.contains name := by
  rw [Bool.eq_iff_iff, List.contains_iff_mem, List.contains_iff_mem, required_schema,
    required_schema, Inheritance.mem_mergeRequired, Inheritance.mem_mergeRequired,
    (((own_perm h).filter _).map _).mem_iff, ((own_perm h).map _).mem_iff]
  rfl

/-! ### Fields -/

/-- There is a field where there is a property, with the type of the property. -/
theorem field?_shape (args : ObjectArguments) {t : TypeExpr} (hname : args.name ≠ "")
    (ht : args.signature c = .ok t) (name : String) :
    ((args.schema c).properties.get? name = none ∧ (args.shape c t).field? name = none)
      ∨ ∃ node u, (args.schema c).properties.get? name = some node
        ∧ TypeExpr.fieldType (args.registry c).close (args.parent.map Shape.inherited) (name, node)
          = .ok u
        ∧ (args.shape c t).field? name
          = some (.mk name u ((args.schema c).required.contains name)) := by
  obtain ⟨fields, extra, hfields, -, rfl⟩ := (TypeExpr.ofObject_eq_ok_iff hname).1 ht
  -- Nullable or not, the fields are those of the record inside.
  have hfield : ∀ u, u = (if (args.schema c).nullable then TypeExpr.union
        [.record (some args.name) fields
          ((args.schema c).representation.getD args.options.representation) extra, .none]
      else .record (some args.name) fields
        ((args.schema c).representation.getD args.options.representation) extra) →
      (args.shape c u).field? name = fields.find? fun f => f.name == name := by
    rintro u rfl
    unfold Shape.field? shape
    split <;> rfl
  rw [hfield _ rfl]
  exact TypeExpr.find?_of_fieldsOf hfields name

/-- In two orders a name has a field in both or in neither.  The fields are required alike, and
    their types are those of one property, read with the two registries. -/
theorem field?_perm (h : specs.Perm args.specs) (ha : args.Accepted c) (hname : args.name ≠ "")
    {t t' : TypeExpr} (ht : args.signature c = .ok t)
    (ht' : (args.withSpecs specs).signature c = .ok t') (name : String) :
    ((args.shape c t).field? name = none ∧ ((args.withSpecs specs).shape c t').field? name = none)
      ∨ ∃ node u u' required, (args.schema c).properties.get? name = some node
        ∧ TypeExpr.fieldType (args.registry c).close (args.parent.map Shape.inherited) (name, node)
          = .ok u
        ∧ TypeExpr.fieldType ((args.withSpecs specs).registry c).close
          (args.parent.map Shape.inherited) (name, node) = .ok u'
        ∧ (args.shape c t).field? name = some (.mk name u required)
        ∧ ((args.withSpecs specs).shape c t').field? name = some (.mk name u' required) := by
  have hnode := get?_properties_perm h ha name
  have hrequired := contains_required_perm (c := c) h name
  -- The property under the name is one in both orders, so the mixed cases contradict each other.
  rcases args.field?_shape hname ht name with ⟨hnone, hfield⟩ | ⟨node, u, hsome, hu, hfield⟩
  · rcases (args.withSpecs specs).field?_shape hname ht' name with
      ⟨-, hfield'⟩ | ⟨node, u, hsome, -⟩
    · exact .inl ⟨hfield, hfield'⟩
    · rw [hnode, hnone] at hsome
      cases hsome
  · rcases (args.withSpecs specs).field?_shape hname ht' name with
      ⟨hnone, -⟩ | ⟨node', u', hsome', hu', hfield'⟩
    · rw [hnode, hsome] at hnone
      cases hnone
    · rw [hnode, hsome] at hsome'
      cases hsome'
      rw [hrequired] at hfield'
      exact .inr ⟨node, u, u', _, hsome, hu, hu', hfield, hfield'⟩

/-! ### What the order may change -/

/-- What is written behind the properties: for other values, and what is taken over. -/
def laterWrites (args : ObjectArguments) (c : Catalog) : Writes :=
  (args.assembly c).writesOfAdditional args.additional
    ++ (args.parent.map (·.registry.content)).getD {}

/-- Where the type of a property looks up a key that nothing behind the properties decides, the
    properties that write the key agree on it.  A type that is taken over looks up nothing. -/
def Unambiguous (args : ObjectArguments) (c : Catalog) : Prop :=
  ∀ name node, (args.schema c).properties.get? name = some node →
    ((args.parent.map Shape.inherited).bind fun p => p.reuse? name node) = none →
    ∀ k, node.normalize.Consults k → (args.laterWrites c).find? k = none →
      ∀ s ∈ args.own, ∀ t ∈ args.own, ∀ u v,
        ((args.assembly c).writes s.descriptor s.options).find? k = some u →
        ((args.assembly c).writes t.descriptor t.options).find? k = some v → u = v

/-- What is written behind the properties counts before what is written for them. -/
theorem find?_registry (args : ObjectArguments) (c : Catalog) (k : LookupKey) :
    (args.registry c).close.find? k = ((args.laterWrites c).find? k).or
      (((args.assembly c).writesOfSpecs args.own).find? k) := by
  have hempty : ({ owner := some args.name } : Registry).find? k = none := by
    cases k <;> rfl
  rw [Registry.find?_close, registry, Registry.find?_write, hempty, Option.or_none, laterWrites,
    Assembly.objectWrites, Writes.find?_append, Writes.find?_append, Writes.find?_append,
    Option.or_assoc]

/-- A key on which the properties agree means the same in every order. -/
theorem find?_registry_perm (h : specs.Perm args.specs) {k : LookupKey}
    (hagree : (args.laterWrites c).find? k = none → ∀ s ∈ args.own, ∀ t ∈ args.own, ∀ u v,
      ((args.assembly c).writes s.descriptor s.options).find? k = some u →
      ((args.assembly c).writes t.descriptor t.options).find? k = some v → u = v) :
    ((args.withSpecs specs).registry c).close.find? k = (args.registry c).close.find? k := by
  rw [find?_registry, find?_registry]
  show ((args.laterWrites c).find? k).or
    (((args.assembly c).writesOfSpecs (args.withSpecs specs).own).find? k) = _
  cases hlater : (args.laterWrites c).find? k with
  | some u => rfl
  | none =>
    rw [Option.none_or, Option.none_or]
    have hmem : ∀ s, s ∈ (args.withSpecs specs).own ↔ s ∈ args.own :=
      fun s => (own_perm h).mem_iff
    -- What all that write the key agree on; any name will do where nothing writes it.
    obtain ⟨unit, hunit⟩ : ∃ unit, ∀ s ∈ args.own, ∀ u,
        ((args.assembly c).writes s.descriptor s.options).find? k = some u → u = unit := by
      by_cases hsome : ∃ s ∈ args.own, ∃ u,
          ((args.assembly c).writes s.descriptor s.options).find? k = some u
      · obtain ⟨s, hs, unit, hunit⟩ := hsome
        exact ⟨unit, fun t ht u hu => hagree hlater t ht s hs u unit hu hunit⟩
      · exact ⟨"", fun s hs u hu => absurd ⟨s, hs, u, hu⟩ hsome⟩
    rw [Assembly.find?_writesOfSpecs hunit,
      Assembly.find?_writesOfSpecs fun s hs => hunit s ((hmem s).1 hs)]
    simp only [hmem]

/-- Any property can be declared last. -/
theorem exists_last {s : PropertySpec} (hs : s ∈ args.own) :
    ∃ specs init, specs.Perm args.specs ∧ (args.withSpecs specs).own = init ++ [s] := by
  obtain ⟨q, hq, rfl⟩ := List.mem_map.1 hs
  obtain ⟨before, after, hsplit⟩ := List.append_of_mem hq
  refine ⟨before ++ after ++ [q], (before ++ after).map (·.withDefaults args.options), ?_, ?_⟩
  · rw [hsplit, List.append_assoc]
    exact (List.perm_append_singleton q after).append_left before
  · simp [own, withSpecs]

/-- The property that is declared last decides what its keys mean. -/
theorem nameOf_registry_last {init : List PropertySpec} {s : PropertySpec}
    (hown : args.own = init ++ [s]) {k : LookupKey} {u : String}
    (hlater : (args.laterWrites c).find? k = none)
    (hu : ((args.assembly c).writes s.descriptor s.options).find? k = some u) :
    (args.registry c).close.nameOf k = some u := by
  refine Registry.nameOf_of_find? ?_
  rw [find?_registry, hlater, Option.none_or, hown, Assembly.find?_writesOfSpecs_concat, hu,
    Option.some_or]

end ObjectArguments

/-! ### Two runs -/

namespace Catalog

variable {c : Catalog} {elsewhere : ShapeHandle → Option Shape} {d : ObjectDeclaration}
  {args : ObjectArguments}

/-- Declarations in another order say the same about the properties, in another order. -/
theorem objectArguments_perm {ps : List Declaration} (hps : ps.Perm d.properties)
    (h : c.objectArguments elsewhere d = .ok args) :
    ∃ specs, specs.Perm args.specs
      ∧ c.objectArguments elsewhere { d with properties := ps } = .ok (args.withSpecs specs) := by
  obtain ⟨hname, hoptions, hspecs, hadditional, hparent, htitle⟩ := objectArguments_eq_ok_iff.1 h
  obtain ⟨specs, hread, hperm⟩ := List.perm_comp_forall₂ hps (Outcome.mapM_eq_ok_iff.1 hspecs)
  exact ⟨specs, hperm, objectArguments_eq_ok_iff.2
    ⟨hname, hoptions, Outcome.mapM_eq_ok_iff.2 hread, hadditional, hparent, htitle⟩⟩

/-- Every order of the properties is the order of some declarations. -/
theorem exists_objectArguments_perm {specs : List PropertySpec} (hspecs : specs.Perm args.specs)
    (h : c.objectArguments elsewhere d = .ok args) :
    ∃ ps, List.Perm ps d.properties
      ∧ c.objectArguments elsewhere { d with properties := ps } = .ok (args.withSpecs specs) := by
  obtain ⟨hname, hoptions, hread, hadditional, hparent, htitle⟩ := objectArguments_eq_ok_iff.1 h
  obtain ⟨ps, hread, hperm⟩ := List.perm_comp_forall₂ hspecs (Outcome.mapM_eq_ok_iff.1 hread).flip
  exact ⟨ps, hperm, objectArguments_eq_ok_iff.2
    ⟨hname, hoptions, Outcome.mapM_eq_ok_iff.2 hread.flip, hadditional, hparent, htitle⟩⟩

/-- A definition that succeeds does so with its properties in any order. -/
theorem succeeds_perm (hc : c.Reached) (helse : ∀ h p, elsewhere h = some p → p.FromReached)
    {ps : List Declaration} (hps : ps.Perm d.properties)
    (h : ∃ x, (c.defineObject elsewhere d).result = .ok x) :
    ∃ y, (c.defineObject elsewhere { d with properties := ps }).result = .ok y := by
  obtain ⟨⟨c', s⟩, hx⟩ := h
  obtain ⟨args, t, hargs, haccepted, -⟩ := defineObject_eq_ok_iff.1 hx
  obtain ⟨specs, hspecs, hargs'⟩ := objectArguments_perm hps hargs
  have haccepted' := ObjectArguments.accepted_perm hspecs haccepted
  have hname := (newName_eq_ok_iff.1 (objectArguments_eq_ok_iff.1 hargs').1).2.1
  obtain ⟨t', ht'⟩ := ObjectArguments.signature_total hname hc.covered
    (ObjectArguments.covered_parent hc helse hargs') haccepted'
  exact ⟨_, (defineObject_eq_ok_iff_of_arguments hargs').2 ⟨haccepted', t', ht', rfl⟩⟩

/-- In two orders of the properties, a property has the same schema, and its key is required in both
    or in neither. -/
theorem node_and_required_perm {ps : List Declaration} (hps : ps.Perm d.properties)
    {x y : Catalog × Shape} (hx : (c.defineObject elsewhere d).result = .ok x)
    (hy : (c.defineObject elsewhere { d with properties := ps }).result = .ok y) (name : String) :
    x.2.schema.properties.get? name = y.2.schema.properties.get? name
      ∧ (x.2.field? name).map FieldType.required = (y.2.field? name).map FieldType.required := by
  obtain ⟨c', s⟩ := x
  obtain ⟨args, t, hargs, haccepted, ht, rfl, rfl⟩ := defineObject_eq_ok_iff.1 hx
  -- The same declarations are read in the other order, and nothing else changes.
  obtain ⟨specs, hspecs, hargs'⟩ := objectArguments_perm hps hargs
  obtain ⟨-, t', ht', rfl⟩ := (defineObject_eq_ok_iff_of_arguments hargs').1 hy
  have hname : args.name ≠ "" := (newName_eq_ok_iff.1 (objectArguments_eq_ok_iff.1 hargs).1).2.1
  refine ⟨(ObjectArguments.get?_properties_perm hspecs haccepted name).symm, ?_⟩
  rcases ObjectArguments.field?_perm hspecs haccepted hname ht ht' name with
    ⟨hfield, hfield'⟩ | ⟨node, u, u', required, -, -, -, hfield, hfield'⟩
  · rw [hfield, hfield']
  · rw [hfield, hfield']
    rfl

/-- In two orders of the properties the fields have the same types when properties that write a key
    which a type looks up agree on it. -/
theorem fieldType_perm {specs : List PropertySpec} (hspecs : specs.Perm args.specs)
    (hname : args.name ≠ "") (haccepted : args.Accepted c) (h : args.Unambiguous c)
    {t t' : TypeExpr} (ht : args.signature c = .ok t)
    (ht' : (args.withSpecs specs).signature c = .ok t') (name : String) :
    ((args.shape c t).field? name).map FieldType.type
      = (((args.withSpecs specs).shape c t').field? name).map FieldType.type := by
  rcases ObjectArguments.field?_perm hspecs haccepted hname ht ht' name with
    ⟨hfield, hfield'⟩ | ⟨node, u, u', required, hnode, hu, hu', hfield, hfield'⟩
  · rw [hfield, hfield']
  · rw [hfield, hfield']
    show some u = some u'
    congr 1
    unfold TypeExpr.fieldType at hu hu'
    cases hreuse : (args.parent.map Shape.inherited).bind fun p => p.reuse? name node with
    | some type =>
      -- A type that is taken over is not read off the registry.
      simp only [hreuse, Except.ok.injEq] at hu hu'
      rw [← hu, ← hu']
    | none =>
      simp only [hreuse] at hu hu'
      refine (TypeExpr.ofSchema_eq_iff hu hu').2 fun k hk => Registry.nameOf_congr ?_
      exact (ObjectArguments.find?_registry_perm hspecs (h name node hnode hreuse k hk)).symm

/-- When the types of fields are the same in all orders, properties that write a key which a type
    looks up agree on it: each of them can be declared last, and then it decides. -/
theorem unambiguous_of_fieldType_perm (hc : c.Reached)
    (helse : ∀ h p, elsewhere h = some p → p.FromReached)
    (hargs : c.objectArguments elsewhere d = .ok args) (haccepted : args.Accepted c)
    (h : ∀ specs, List.Perm specs args.specs → ∀ t t', args.signature c = .ok t →
      (args.withSpecs specs).signature c = .ok t' → ∀ name,
        ((args.shape c t).field? name).map FieldType.type
          = (((args.withSpecs specs).shape c t').field? name).map FieldType.type) :
    args.Unambiguous c := by
  have hname : args.name ≠ "" := (newName_eq_ok_iff.1 (objectArguments_eq_ok_iff.1 hargs).1).2.1
  obtain ⟨t, ht⟩ := ObjectArguments.signature_total hname hc.covered
    (ObjectArguments.covered_parent hc helse hargs) haccepted
  intro name node hnode hreuse k hk hlater s hs s' hs' u v hu hv
  -- In the order in which `q` is last, reading the schema of the property finds what `q` writes.
  have hlast : ∀ q ∈ args.own, ∀ w,
      ((args.assembly c).writes q.descriptor q.options).find? k = some w →
      ∃ r type, TypeExpr.ofNormalForm r node = .ok type ∧ r.nameOf k = some w
        ∧ ((args.shape c t).field? name).map FieldType.type = some type := by
    intro q hq w hw
    obtain ⟨specs, init, hperm, hown⟩ := ObjectArguments.exists_last hq
    obtain ⟨ps, -, hargs'⟩ := exists_objectArguments_perm hperm hargs
    have haccepted' := ObjectArguments.accepted_perm hperm haccepted
    have htotal : ∃ t', (args.withSpecs specs).signature c = .ok t' :=
      ObjectArguments.signature_total hname hc.covered
        (ObjectArguments.covered_parent hc helse hargs') haccepted'
    obtain ⟨t', ht'⟩ := htotal
    rcases ObjectArguments.field?_perm hperm haccepted hname ht ht' name with
      ⟨hfield, -⟩ | ⟨node', type, type', required, hsome, -, htype, -, hfield⟩
    · rcases args.field?_shape hname ht name with ⟨hnone, -⟩ | ⟨_, _, -, -, hfield'⟩
      · rw [hnode] at hnone
        cases hnone
      · rw [hfield] at hfield'
        cases hfield'
    · rw [hnode] at hsome
      cases hsome
      unfold TypeExpr.fieldType at htype
      rw [hreuse] at htype
      refine ⟨_, type', htype, ObjectArguments.nameOf_registry_last hown hlater hw, ?_⟩
      rw [h specs hperm t t' ht ht' name, hfield]
      rfl
  obtain ⟨r₁, type₁, htype₁, hname₁, hfield₁⟩ := hlast s hs u hu
  obtain ⟨r₂, type₂, htype₂, hname₂, hfield₂⟩ := hlast s' hs' v hv
  rw [hfield₁] at hfield₂
  cases hfield₂
  have hagree := (TypeExpr.ofSchema_eq_iff htype₁ htype₂).1 rfl k hk
  rw [hname₁, hname₂] at hagree
  exact Option.some.inj hagree

/-- What the order of properties changes.  Definitions of an object with its properties in two
    orders both succeed or both fail; a property has the same schema in both, and its key is
    required in both or in neither.  The types of all fields are the same in all orders exactly when
    properties that write a key which the type of some property looks up agree on it. -/
theorem Reached.sibling_order (hc : c.Reached)
    (helse : ∀ h p, elsewhere h = some p → p.FromReached) (d : ObjectDeclaration) :
    (∀ ps, ps.Perm d.properties →
      ((∃ x, (c.defineObject elsewhere d).result = .ok x) ↔
        ∃ y, (c.defineObject elsewhere { d with properties := ps }).result = .ok y)
      ∧ ∀ x y, (c.defineObject elsewhere d).result = .ok x →
        (c.defineObject elsewhere { d with properties := ps }).result = .ok y → ∀ name,
          x.2.schema.properties.get? name = y.2.schema.properties.get? name
          ∧ (x.2.field? name).map FieldType.required = (y.2.field? name).map FieldType.required)
    ∧ ∀ args, c.objectArguments elsewhere d = .ok args → args.Accepted c →
      ((∀ ps, ps.Perm d.properties → ∀ x y, (c.defineObject elsewhere d).result = .ok x →
          (c.defineObject elsewhere { d with properties := ps }).result = .ok y → ∀ name,
            (x.2.field? name).map FieldType.type = (y.2.field? name).map FieldType.type) ↔
        args.Unambiguous c) := by
  refine ⟨fun ps hps => ⟨⟨succeeds_perm hc helse hps, fun h => ?_⟩, fun x y hx hy name =>
    node_and_required_perm hps hx hy name⟩, fun args hargs haccepted => ⟨fun h => ?_, fun h => ?_⟩⟩
  · exact succeeds_perm (d := { d with properties := ps }) hc helse hps.symm h
  · refine unambiguous_of_fieldType_perm hc helse hargs haccepted ?_
    intro specs hspecs t t' ht ht' name
    -- Each order of the specifications comes from an order of the declarations.
    obtain ⟨ps, hps, hargs'⟩ := exists_objectArguments_perm hspecs hargs
    exact h ps hps _ _ ((defineObject_eq_ok_iff_of_arguments hargs).2 ⟨haccepted, t, ht, rfl⟩)
      ((defineObject_eq_ok_iff_of_arguments hargs').2
        ⟨ObjectArguments.accepted_perm hspecs haccepted, t', ht', rfl⟩) name
  · intro ps hps x y hx hy name
    obtain ⟨specs, hspecs, hargs'⟩ := objectArguments_perm hps hargs
    obtain ⟨-, t, ht, rfl⟩ := (defineObject_eq_ok_iff_of_arguments hargs).1 hx
    obtain ⟨-, t', ht', rfl⟩ := (defineObject_eq_ok_iff_of_arguments hargs').1 hy
    have hname : args.name ≠ "" := (newName_eq_ok_iff.1 (objectArguments_eq_ok_iff.1 hargs).1).2.1
    exact fieldType_perm hspecs hname haccepted h ht ht' name

/-! ### Baskets of fruit -/

namespace Baskets

/-- Apples are texts. -/
def apples : TypeDeclaration :=
  { name := .str "Apple", type := .descriptor (.scalar .string), title := .str "Fruit" }

/-- Pears are integers, with the title that apples have. -/
def pears : TypeDeclaration :=
  { name := .str "Pear", type := .descriptor (.scalar .integer), title := .str "Fruit" }

/-- The property that refers to apples. -/
def appleSpec : PropertySpec := ⟨"apple", .named "Apple", {}⟩

/-- The property that refers to pears. -/
def pearSpec : PropertySpec := ⟨"pear", .named "Pear", {}⟩

/-- Baskets hold an apple and a pear, which are declared in some order. -/
def baskets (specs : List PropertySpec) : ObjectDeclaration :=
  { name := .str "Basket", properties := specs.map .spec }

/-- What the definition of baskets says. -/
def basketArguments (specs : List PropertySpec) : ObjectArguments :=
  ⟨"Basket", "Basket", {}, specs, none, none⟩

/-- The shape of apples. -/
def apple : Shape :=
  TypeArguments.shape ⟨"Apple", "Fruit", .scalar .string, {}⟩ {} (.primitive .string)

/-- The shape of pears. -/
def pear : Shape :=
  TypeArguments.shape ⟨"Pear", "Fruit", .scalar .integer, {}⟩ (({} : Catalog).add apple)
    (.primitive .integer)

/-- The catalog of apples and pears. -/
def fruits : Catalog := (({} : Catalog).add apple).add pear

/-- The catalog of both fruits is reached by defining them, for titles may be shared. -/
theorem reachable_fruits : fruits.Reachable := by
  refine ⟨"", [.type apples, .type pears], ?_⟩
  have happle : (({} : Catalog).defineType apples).result = .ok (({} : Catalog).add apple, apple) :=
    defineType_eq_ok_iff.2 ⟨⟨"Apple", "Fruit", .scalar .string, {}⟩, _, rfl, rfl,
      TypeExpr.ofSchema_scalar rfl, rfl, rfl⟩
  have hpear : ((({} : Catalog).add apple).defineType pears).result = .ok (fruits, pear) :=
    defineType_eq_ok_iff.2 ⟨⟨"Pear", "Fruit", .scalar .integer, {}⟩, _, rfl, rfl,
      TypeExpr.ofSchema_scalar rfl, rfl, rfl⟩
  have hstep : ({} : Catalog).step (fun _ => none) (.type apples) = ({} : Catalog).add apple := by
    rw [step, define, happle]
  rw [after_cons, after_cons, after_nil, hstep, step, define, hpear]

theorem accepted_baskets : (basketArguments [appleSpec, pearSpec]).Accepted fruits where
  names := by decide
  record := rfl
  specs := by
    intro s hs
    rcases List.mem_cons.1 hs with rfl | hs
    · rfl
    · rw [List.mem_singleton.1 hs]
      rfl
  additional := by
    intro e he
    cases he
  parent := by
    intro p hp
    cases hp

/-- The type of the apple is what the registry says about fruit. -/
theorem field?_apple {specs : List PropertySpec}
    (hargs : fruits.objectArguments (fun _ => none) (baskets specs) = .ok (basketArguments specs))
    (h : (basketArguments specs).Accepted fruits)
    (hnode : ((basketArguments specs).schema fruits).properties.get? "apple"
      = some (Schema.toTitle "Fruit")) {u : String}
    (hunit : ((basketArguments specs).registry fruits).resolve "#/definitions/Fruit" = some u) :
    ∃ x, (fruits.defineObject (fun _ => none) (baskets specs)).result = .ok x
      ∧ (x.2.field? "apple").map FieldType.type = some (.named u) := by
  have hname : (basketArguments specs).name ≠ "" := by simp [basketArguments]
  obtain ⟨t, ht⟩ := ObjectArguments.signature_total hname reachable_fruits.reached.covered
    (fun p hp => by cases hp) h
  refine ⟨_, (defineObject_eq_ok_iff_of_arguments hargs).2 ⟨h, t, ht, rfl⟩, ?_⟩
  rcases (basketArguments specs).field?_shape hname ht "apple" with
    ⟨hnone, -⟩ | ⟨node, type, hsome, htype, hfield⟩
  · rw [hnode] at hnone
    cases hnone
  · rw [hnode] at hsome
    cases hsome
    -- A reference is read through the registry.
    obtain ⟨unit', hunit', rfl⟩ := TypeExpr.ofSchema_reference_eq_ok_iff.1 htype
    have heq : u = unit' := Option.some.inj (hunit.symm.trans hunit')
    rw [hfield, heq]
    rfl

end Baskets

/-- Baskets are defined with their two fruits in either order, but the types of the fruits depend on
    the order. -/
theorem Reached.sibling_order_baskets :
    Baskets.fruits.Reached
      ∧ (∃ x, (Baskets.fruits.defineObject (fun _ => none)
          (Baskets.baskets [Baskets.pearSpec, Baskets.appleSpec])).result = .ok x)
      ∧ ¬ ∀ ps, List.Perm ps (Baskets.baskets [Baskets.appleSpec, Baskets.pearSpec]).properties →
          ∀ x y, (Baskets.fruits.defineObject (fun _ => none)
              (Baskets.baskets [Baskets.appleSpec, Baskets.pearSpec])).result = .ok x →
            (Baskets.fruits.defineObject (fun _ => none)
              { Baskets.baskets [Baskets.appleSpec, Baskets.pearSpec] with
                properties := ps }).result = .ok y →
            ∀ name, (x.2.field? name).map FieldType.type
              = (y.2.field? name).map FieldType.type := by
  have hc := Baskets.reachable_fruits.reached
  obtain ⟨horders, htypes⟩ := @Reached.sibling_order Baskets.fruits (fun _ => none) hc (by simp)
    (Baskets.baskets [Baskets.appleSpec, Baskets.pearSpec])
  have htypes := htypes (Baskets.basketArguments [Baskets.appleSpec, Baskets.pearSpec]) rfl
    Baskets.accepted_baskets
  refine ⟨hc, ?_, fun hsame => ?_⟩
  · refine (horders (Baskets.baskets [Baskets.pearSpec, Baskets.appleSpec]).properties
      (.swap _ _ _)).1.1 ?_
    obtain ⟨t, ht⟩ := ObjectArguments.signature_total (by decide) hc.covered
      (fun p hp => by cases hp) Baskets.accepted_baskets
    exact ⟨_, (defineObject_eq_ok_iff_of_arguments rfl).2 ⟨Baskets.accepted_baskets, t, ht, rfl⟩⟩
  · -- The type of the apple looks up the title that both fruits have.
    have hagree := htypes.1 hsame "apple" (Schema.toTitle "Fruit") rfl rfl
      (.path (Schema.definitionsPath ++ "Fruit")) (.reference _) rfl
      (Baskets.appleSpec.withDefaults {}) (.head _) (Baskets.pearSpec.withDefaults {})
      (.tail _ (.head _)) "Apple" "Pear" rfl rfl
    exact absurd hagree (by decide)

/-- The type of the apple in a basket follows the pear when the pear is declared behind it. -/
theorem Reached.type_of_apple_follows_pear :
    ∃ x y, (Baskets.fruits.defineObject (fun _ => none)
          (Baskets.baskets [Baskets.appleSpec, Baskets.pearSpec])).result = .ok x
      ∧ (Baskets.fruits.defineObject (fun _ => none)
          (Baskets.baskets [Baskets.pearSpec, Baskets.appleSpec])).result = .ok y
      ∧ (x.2.field? "apple").map FieldType.type = some (.named "Pear")
      ∧ (y.2.field? "apple").map FieldType.type = some (.named "Apple") := by
  obtain ⟨x, hx, hxtype⟩ := Baskets.field?_apple rfl Baskets.accepted_baskets rfl
    (u := "Pear") rfl
  obtain ⟨y, hy, hytype⟩ := Baskets.field?_apple rfl
    (ObjectArguments.accepted_perm (.swap _ _ _) Baskets.accepted_baskets) rfl (u := "Apple") rfl
  exact ⟨x, y, hx, hy, hxtype, hytype⟩

end Catalog

end DataShapes
