import DataShapes.Proofs.Assembly.Parts

/-!
# Assembly of objects in parts

The schema of an object is assembled from its own properties and from what it takes over.  As for a
single descriptor, the checks, the schema and the writes do not look at each other.

Main definitions:
* `PropertySpec.entry`, `buildProperties`: properties under their names, with their schemas;
* `Inheritance.extended`: a schema with what it takes over;
* `Assembly.objectBuilt`, `Assembly.objectWrites`: the schema and the writes of an object.

Main statements:
* `Assembly.objectSchema_eq_ok_iff`: when an object is assembled, and what it then gives.
-/

namespace DataShapes

/-- A property under its name, with its schema. -/
def PropertySpec.entry (n : Naming) (s : PropertySpec) : String × Schema :=
  (s.name, s.descriptor.build n s.options)

/-- The schemas of properties under their names. -/
def buildProperties (n : Naming) (specs : List PropertySpec) : Table Schema :=
  specs.map (·.entry n)

/-- The schema of values under other keys. -/
def buildAdditional (n : Naming) (additional : Option (Descriptor × PropertyOptions)) :
    Option Schema :=
  additional.map fun e => e.1.build n e.2

namespace Inheritance

/-- The extending schema with the properties and required names that it takes over. -/
def extended (child parent : Schema) : Schema :=
  (child.mapFacets ({ · with
    required := some (mergeRequired child.properties.keys parent.required child.required) })
  ).withProperties (merge Prod.fst parent.properties child.properties)

/-- Only an object can be extended. -/
theorem extend_eq_ok_iff {child parent s : Schema} :
    (extend child (some parent)).result = .ok s ↔
      parent.isObject = true ∧ s = extended child parent := by
  unfold extend
  cases hparent : parent.isObject with
  | false =>
    simp only [hparent, Bool.not_false, if_true, Noted.result_fail, reduceCtorEq, false_and]
  | true =>
    simp only [hparent, Bool.not_true, Bool.false_eq_true, if_false, true_and]
    rw [Noted.result_bind, result_noteOverrides]
    constructor
    · intro h
      exact (Except.ok.inj h).symm
    · rintro rfl
      rfl

/-- Nothing is merged with what is declared when nothing is taken over. -/
@[simp] theorem merge_nil {α : Type} (key : α → String) (own : List α) :
    merge key [] own = own := by
  simp [merge, settled, hasKey]

/-- Merging takes every item from one of the two lists. -/
theorem mem_merge {α : Type} {key : α → String} {inherited own : List α} {x : α}
    (h : x ∈ merge key inherited own) : x ∈ inherited ∨ x ∈ own := by
  -- In the place of an inherited item stands the item itself, or the own one that overrides it.
  have hsettled : ∀ inherited : List α, x ∈ settled key own inherited →
      x ∈ inherited ∨ x ∈ own := by
    intro inherited hx
    induction inherited with
    | nil => simp [settled] at hx
    | cons y ys ih =>
      rcases List.mem_cons.1 hx with hx | hx
      · split at hx
        · exact .inl (hx ▸ List.mem_cons_self)
        · cases hlast : lastWith key (key y) own with
          | none =>
            rw [hlast] at hx
            exact .inl (hx ▸ List.mem_cons_self)
          | some z =>
            rw [hlast] at hx
            have hz : z ∈ own := List.mem_reverse.1 (List.mem_of_find?_eq_some hlast)
            exact .inr (hx ▸ hz)
      · exact (ih hx).imp_left (List.mem_cons_of_mem _)
  rcases List.mem_append.1 h with h | h
  · exact hsettled inherited h
  · exact .inr (List.mem_filter.1 h).1

/-- The merged names are distinct when the names on both sides are. -/
theorem nodup_merge {α : Type} {key : α → String} {inherited own : List α}
    (hinherited : (inherited.map key).Nodup) (hown : (own.map key).Nodup) :
    ((merge key inherited own).map key).Nodup := by
  rw [keys_merge]
  refine hinherited.append (hown.filter _) fun name hname hnew => ?_
  have hno : name ∉ inherited.map key := by simpa using (List.mem_filter.1 hnew).2
  exact hno hname

section Related

variable {α β : Type} {key : α → String} {key' : β → String} {R : α → β → Prop}

/-- Related lists have the same keys. -/
theorem hasKey_eq_of_forall₂ (hR : ∀ x y, R x y → key x = key' y) {xs : List α} {ys : List β}
    (h : List.Forall₂ R xs ys) (name : String) : hasKey key name xs = hasKey key' name ys := by
  have hkeys : xs.map key = ys.map key' := by
    induction h with
    | nil => rfl
    | cons hxy _ ih => rw [List.map_cons, List.map_cons, hR _ _ hxy, ih]
  rw [Bool.eq_iff_iff, hasKey_iff, hasKey_iff, hkeys]

/-- Related lists have related last items under a key. -/
theorem lastWith_of_forall₂ (hR : ∀ x y, R x y → key x = key' y) {xs : List α} {ys : List β}
    (h : List.Forall₂ R xs ys) (name : String) :
    (lastWith key name xs = none ∧ lastWith key' name ys = none)
      ∨ ∃ x y, lastWith key name xs = some x ∧ lastWith key' name ys = some y ∧ R x y := by
  have hreverse : List.Forall₂ R xs.reverse ys.reverse := List.forall₂_reverse_iff.2 h
  unfold lastWith
  generalize xs.reverse = xs' at hreverse ⊢
  generalize ys.reverse = ys' at hreverse ⊢
  -- The last item is the first one from behind.
  induction hreverse with
  | nil => exact .inl ⟨rfl, rfl⟩
  | @cons x y xs ys hxy _ ih =>
    rw [List.find?_cons, List.find?_cons, hR x y hxy]
    cases key' y == name with
    | true => exact .inr ⟨x, y, rfl, rfl, hxy⟩
    | false => exact ih

/-- Merging related lists gives related lists. -/
theorem forall₂_merge (hR : ∀ x y, R x y → key x = key' y) {inherited own : List α}
    {inherited' own' : List β} (hinherited : List.Forall₂ R inherited inherited')
    (hown : List.Forall₂ R own own') :
    List.Forall₂ R (merge key inherited own) (merge key' inherited' own') := by
  have hsettled : List.Forall₂ R (settled key own inherited) (settled key' own' inherited') := by
    induction hinherited with
    | nil => exact .nil
    | @cons x y xs ys hxy hxs ih =>
      rw [settled, settled, hR x y hxy, hasKey_eq_of_forall₂ hR hxs]
      refine .cons ?_ ih
      split
      · exact hxy
      · rcases lastWith_of_forall₂ hR hown (key' y) with ⟨hx, hy⟩ | ⟨x', y', hx, hy, hxy'⟩
        · rw [hx, hy]
          exact hxy
        · rw [hx, hy]
          exact hxy'
  -- Which own items are new is decided by the inherited keys, which are the same on both sides.
  have hnew : List.Forall₂ R (own.filter fun x => !hasKey key (key x) inherited)
      (own'.filter fun y => !hasKey key' (key' y) inherited') := by
    clear hsettled
    induction hown with
    | nil => exact .nil
    | @cons x y xs ys hxy _ ih =>
      rw [List.filter_cons, List.filter_cons, hR x y hxy, hasKey_eq_of_forall₂ hR hinherited]
      split
      · exact .cons hxy ih
      · exact ih
  exact List.rel_append hsettled hnew

end Related

/-- Required names stay as they are when none are taken over. -/
@[simp] theorem mergeRequired_nil (declared own : List String) :
    mergeRequired declared [] own = own := by
  simp [mergeRequired]

end Inheritance

namespace Assembly

/-- The checks of properties. -/
def AcceptsSpecs (a : Assembly) (specs : List PropertySpec) : Prop :=
  ∀ s ∈ specs, a.check s.name s.descriptor s.options = .ok ()

/-- The checks of the type of values under other keys. -/
def AcceptsAdditional (a : Assembly) (additional : Option (Descriptor × PropertyOptions)) : Prop :=
  ∀ e, additional = some e → a.check "additional_properties" e.1 e.2 = .ok ()

/-- The writes of properties, one after the other. -/
def writesOfSpecs (a : Assembly) : List PropertySpec → Writes
  | [] => {}
  | s :: specs => a.writes s.descriptor s.options ++ writesOfSpecs a specs

/-- The writes of the type of values under other keys. -/
def writesOfAdditional (a : Assembly) : Option (Descriptor × PropertyOptions) → Writes
  | none => {}
  | some e => a.writes e.1 e.2

/-- The schemas of properties are built when all their declarations pass the checks, and the
    registry has then got the writes of all of them. -/
theorem propertySchemas_eq_ok_iff (a : Assembly) {specs : List PropertySpec} {r r' : Registry}
    {t : Table Schema} (h : r.isSealed = false) :
    (a.propertySchemas specs r).result = .ok (t, r') ↔
      a.AcceptsSpecs specs ∧ t = buildProperties a.naming specs
        ∧ r' = r.write (a.writesOfSpecs specs) := by
  -- Each property is assembled into the registry that the ones before it have left.
  induction specs generalizing r r' t with
  | nil => simp [propertySchemas, AcceptsSpecs, buildProperties, writesOfSpecs, eq_comm]
  | cons s specs ih =>
    rw [propertySchemas, Noted.result_bind, Outcome.bind_eq_ok_iff, result_schemaOf _ _ _ _ h,
      AcceptsSpecs, List.forall_mem_cons]
    constructor
    · rintro ⟨⟨t₁, r₁⟩, h₁, h₂⟩
      obtain ⟨⟨⟩, hcheck, h₁⟩ := Outcome.map_eq_ok_iff.1 h₁
      obtain ⟨rfl, rfl⟩ := Prod.mk.inj h₁
      rw [Noted.result_bind, Outcome.bind_eq_ok_iff] at h₂
      obtain ⟨⟨t₂, r₂⟩, h₂, h₃⟩ := h₂
      obtain ⟨hspecs, rfl, rfl⟩ := (ih (r := r.write _) h).1 h₂
      obtain ⟨rfl, rfl⟩ := Prod.mk.inj (Except.ok.inj h₃)
      exact ⟨⟨hcheck, hspecs⟩, rfl, by rw [writesOfSpecs, Registry.write_append]⟩
    · rintro ⟨⟨hcheck, hspecs⟩, rfl, rfl⟩
      refine ⟨(_, _), Outcome.map_eq_ok_iff.2 ⟨(), hcheck, rfl⟩, ?_⟩
      rw [Noted.result_bind, Outcome.bind_eq_ok_iff]
      rw [writesOfSpecs, Registry.write_append]
      exact ⟨(_, _), (ih (r := r.write _) h).2 ⟨hspecs, rfl, rfl⟩, rfl⟩

/-- The same for the values under other keys. -/
theorem additionalSchema_eq_ok_iff (a : Assembly)
    {additional : Option (Descriptor × PropertyOptions)} {r r' : Registry} {s : Option Schema}
    (h : r.isSealed = false) :
    (a.additionalSchema additional r).result = .ok (s, r') ↔
      a.AcceptsAdditional additional ∧ s = buildAdditional a.naming additional
        ∧ r' = r.write (a.writesOfAdditional additional) := by
  cases additional with
  | none =>
    simp [additionalSchema, AcceptsAdditional, buildAdditional, writesOfAdditional, eq_comm]
  | some e =>
    obtain ⟨d, o⟩ := e
    -- The type for other keys is assembled like that of a property.
    rw [additionalSchema, Noted.result_bind, Outcome.bind_eq_ok_iff, result_schemaOf _ _ _ _ h]
    constructor
    · rintro ⟨⟨t₁, r₁⟩, h₁, h₂⟩
      obtain ⟨⟨⟩, hcheck, h₁⟩ := Outcome.map_eq_ok_iff.1 h₁
      obtain ⟨rfl, rfl⟩ := Prod.mk.inj h₁
      obtain ⟨rfl, rfl⟩ := Prod.mk.inj (Except.ok.inj h₂)
      exact ⟨fun e he => Option.some.inj he ▸ hcheck, rfl, rfl⟩
    · rintro ⟨hcheck, rfl, rfl⟩
      exact ⟨(_, _), Outcome.map_eq_ok_iff.2 ⟨(), hcheck _ rfl, rfl⟩, rfl⟩

/-- The schema of an object with what it takes over from the shape that it extends. -/
def objectBuilt (a : Assembly) (own : List PropertySpec)
    (additional : Option (Descriptor × PropertyOptions)) (options : ObjectOptions)
    (parent : Option Shape) : Schema :=
  let s := a.ownSchema own (buildProperties a.naming own) (buildAdditional a.naming additional)
    options
  match parent with
  | none => s
  | some p => Inheritance.extended s p.schema

/-- The plain keywords of an object with what it takes over. -/
def objectFacets (a : Assembly) (own : List PropertySpec) (options : ObjectOptions)
    (parent : Option Shape) : Facets where
  kind := .object
  title := some a.title
  nullable := options.nullable
  required := some (Inheritance.mergeRequired (own.map PropertySpec.name)
    ((parent.map Shape.required).getD [])
    ((own.filter (·.options.isRequired)).map PropertySpec.name))
  description := options.description
  sample := options.sample
  representation := some options.representation

/-- The properties of an object with what it takes over, under their names. -/
def objectProperties (a : Assembly) (own : List PropertySpec) (parent : Option Shape) :
    Table Schema :=
  Inheritance.merge Prod.fst ((parent.map (·.schema.properties)).getD [])
    (buildProperties a.naming own)

/-- Schemas are built under the names of the properties, in their order. -/
theorem keys_buildProperties (n : Naming) (specs : List PropertySpec) :
    Table.keys (buildProperties n specs) = specs.map PropertySpec.name := by
  simp [Table.keys, buildProperties, PropertySpec.entry]

/-- The schema of an object by its keywords, properties and other values. -/
theorem objectBuilt_eq (a : Assembly) (own : List PropertySpec)
    (additional : Option (Descriptor × PropertyOptions)) (options : ObjectOptions)
    (parent : Option Shape) :
    a.objectBuilt own additional options parent
      = .node (a.objectFacets own options parent) (some (a.objectProperties own parent)) none
          (buildAdditional a.naming additional) none := by
  cases parent with
  | none => simp [objectBuilt, ownSchema, objectFacets, objectProperties]
  | some p =>
    -- Merging needs no more of the own properties than their names and schemas.
    have hkeys := keys_buildProperties a.naming own
    simp [objectBuilt, ownSchema, objectFacets, objectProperties, Inheritance.extended,
      Schema.mapFacets, Schema.withProperties, Schema.properties, Schema.required, Schema.facets?,
      Shape.required, hkeys]

/-- The writes of an object: its properties, other values, and what the extended shape holds. -/
def objectWrites (a : Assembly) (own : List PropertySpec)
    (additional : Option (Descriptor × PropertyOptions)) (parent : Option Shape) : Writes :=
  a.writesOfSpecs own ++ a.writesOfAdditional additional
    ++ (parent.map (·.registry.content)).getD {}

/-- Only an object can be extended; its schema is merged and its registry is taken over. -/
theorem inheritFrom_eq_ok_iff {name : String} {parent : Option Shape} {s s' : Schema}
    {r r' : Registry} (h : r.isSealed = false) :
    (inheritFrom name parent s r).result = .ok (s', r') ↔
      (∀ p, parent = some p → p.schema.isObject = true)
        ∧ s' = (parent.map fun p => Inheritance.extended s p.schema).getD s
        ∧ r' = r.write ((parent.map (·.registry.content)).getD {}) := by
  cases parent with
  | none =>
    constructor
    · intro heq
      obtain ⟨rfl, rfl⟩ := Prod.mk.inj (Except.ok.inj heq)
      exact ⟨by simp, rfl, rfl⟩
    · rintro ⟨-, rfl, rfl⟩
      rfl
  | some p =>
    -- The registry is merged only behind the schema, so a parent that is no object writes nothing.
    rw [inheritFrom, Noted.result_bind, Noted.result_note, Noted.result_bind]
    simp only [Except.bind, Option.some.injEq, forall_eq', Option.map_some, Option.getD_some]
    constructor
    · intro heq
      obtain ⟨t, ht, heq⟩ := Outcome.bind_eq_ok_iff.1 heq
      obtain ⟨hobject, rfl⟩ := Inheritance.extend_eq_ok_iff.1 ht
      rw [Noted.result_bind, Registry.result_merge h] at heq
      obtain ⟨rfl, rfl⟩ := Prod.mk.inj (Except.ok.inj heq)
      exact ⟨hobject, rfl, rfl⟩
    · rintro ⟨hobject, rfl, rfl⟩
      refine Outcome.bind_eq_ok_iff.2 ⟨_, Inheritance.extend_eq_ok_iff.2 ⟨hobject, rfl⟩, ?_⟩
      rw [Noted.result_bind, Registry.result_merge h]
      rfl

/-- An object is assembled exactly when its names are distinct, it is in order as a record, its
    properties and other values pass their checks, and what it extends is an object; this is what it
    then gives. -/
theorem objectSchema_eq_ok_iff (a : Assembly) {name : String} {specs : List PropertySpec}
    {additional : Option (Descriptor × PropertyOptions)} {options : ObjectOptions}
    {parent : Option Shape} {s : Schema} {r r' : Registry} (h : r.isSealed = false) :
    (a.objectSchema name specs additional options parent r).result = .ok (s, r') ↔
      ((specs.map PropertySpec.name).Nodup
        ∧ checkRecord a.title (Inheritance.merge PropertySpec.name
            ((parent.map Shape.specs).getD []) (specs.map (·.withDefaults options)))
            additional options = .ok ()
        ∧ a.AcceptsSpecs (specs.map (·.withDefaults options))
        ∧ a.AcceptsAdditional additional
        ∧ ∀ p, parent = some p → p.schema.isObject = true)
      ∧ s = a.objectBuilt (specs.map (·.withDefaults options)) additional options parent
      ∧ r' = r.write (a.objectWrites (specs.map (·.withDefaults options)) additional parent) := by
  set own := specs.map (·.withDefaults options) with hown
  have hbuilt : ∀ t, t = a.objectBuilt own additional options parent ↔
      t = (parent.map fun p => Inheritance.extended (a.ownSchema own (buildProperties a.naming own)
        (buildAdditional a.naming additional) options) p.schema).getD
        (a.ownSchema own (buildProperties a.naming own) (buildAdditional a.naming additional)
          options) := by
    intro t
    cases parent <;> rfl
  rw [objectSchema, hbuilt, objectWrites, Registry.write_append, Registry.write_append,
    ← checkDistinctNames_eq_ok_iff a.title]
  simp only [← hown, Noted.result_bind, Noted.result_liftM, Inheritance.result_mergeSpecs]
  constructor
  · -- The stages are taken off one by one; each leaves the registry open for the next.
    intro heq
    obtain ⟨⟨⟩, hnames, heq⟩ := Outcome.bind_eq_ok_iff.1 heq
    obtain ⟨all, hall, heq⟩ := Outcome.bind_eq_ok_iff.1 heq
    cases Except.ok.inj hall
    obtain ⟨⟨⟩, hrecord, heq⟩ := Outcome.bind_eq_ok_iff.1 heq
    obtain ⟨⟨ps, r₁⟩, hps, heq⟩ := Outcome.bind_eq_ok_iff.1 heq
    obtain ⟨hspecs, rfl, rfl⟩ := (a.propertySchemas_eq_ok_iff h).1 hps
    obtain ⟨⟨extra, r₂⟩, hextra, heq⟩ := Outcome.bind_eq_ok_iff.1 heq
    obtain ⟨hadditional, rfl, rfl⟩ := (a.additionalSchema_eq_ok_iff (by simpa using h)).1 hextra
    obtain ⟨hparent, rfl, rfl⟩ := (inheritFrom_eq_ok_iff (by simpa using h)).1 heq
    exact ⟨⟨hnames, hrecord, hspecs, hadditional, hparent⟩, rfl, rfl⟩
  · rintro ⟨⟨hnames, hrecord, hspecs, hadditional, hparent⟩, rfl, rfl⟩
    refine Outcome.bind_eq_ok_iff.2 ⟨(), hnames, Outcome.bind_eq_ok_iff.2 ⟨_, rfl, ?_⟩⟩
    refine Outcome.bind_eq_ok_iff.2 ⟨(), hrecord, ?_⟩
    refine Outcome.bind_eq_ok_iff.2
      ⟨(_, _), (a.propertySchemas_eq_ok_iff h).2 ⟨hspecs, rfl, rfl⟩, ?_⟩
    refine Outcome.bind_eq_ok_iff.2
      ⟨(_, _), (a.additionalSchema_eq_ok_iff (by simpa using h)).2 ⟨hadditional, rfl, rfl⟩, ?_⟩
    exact (inheritFrom_eq_ok_iff (by simpa using h)).2 ⟨hparent, rfl, rfl⟩

end Assembly

end DataShapes
