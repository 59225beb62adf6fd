import DataShapes.Proofs.Assembly.Recognition
import DataShapes.Proofs.Catalog.Canonical
import DataShapes.Proofs.Descriptor.Shorthand

/-!
# Definitions whose written types are in order

A definition reads the types that are written in it, and takes descriptors as they are.  When all
parts of the descriptors that it is passed are descriptors, its assembly never comes across anything
else; and in catalogs of definitions that are passed no unions without members, which extend shapes of
such catalogs only, no type signature holds a union without members.

Main definitions:
* `Definition.types`, `Definition.instances`: the types that are written in a definition, and the
  descriptors in them;
* `Catalog.ReachedBy`: a catalog is reached by definitions with a property.

Main statements:
* `Definition.recognizes_define`: the assembly of a definition recognizes what it is passed, when that
  is well formed;
* `Catalog.ReachedBy.reachedAmong`: shapes declare unions with members when the definitions that they
  come from are passed such;
* `Catalog.coercion_in_order`: both, and what they rest on.
-/

namespace DataShapes

/-! ### Written types -/

/-- The type that is written in the declaration of a property. -/
def Declaration.type? : Declaration → Option Value
  | .spec s => some s.descriptor.toValue
  | .value (.tuple [_, type]) => some type
  | .value (.tuple [_, type, _]) => some type
  | .value _ => none

/-- The type that is written for values under other keys, with or without options. -/
def Value.additionalType? : Value → Option Value
  | .null => none
  | .tuple [type, .null] => some type
  | .tuple [type, .dict _] => some type
  | type => some type

namespace Definition

/-- The types that are written in a definition. -/
def types : Definition → List Value
  | .object d => d.properties.filterMap Declaration.type? ++ d.additional.additionalType?.toList
  | .type d => [d.type]

/-- The descriptors that are passed to a definition, on their own or inside of written types. -/
def instances (d : Definition) : List Descriptor := d.types.flatMap Value.instances

/-- The descriptors in a written type of a definition are passed to the definition. -/
theorem mem_instances {d : Definition} {v : Value} (hv : v ∈ d.types) {e : Descriptor}
    (he : e ∈ v.instances) : e ∈ d.instances := List.mem_flatMap.2 ⟨v, hv, he⟩

end Definition

/-- A declared property has the descriptor that its written type stands for. -/
theorem PropertySpec.read_of_ofDeclaration {d : Declaration} {spec : PropertySpec}
    (h : ofDeclaration d = .ok spec) :
    ∃ v, d.type? = some v ∧ Shorthand.read v = .ok spec.descriptor := by
  -- A declaration is finished, or has its type with or without options.
  unfold ofDeclaration at h
  split at h
  · obtain ⟨e, he, h⟩ := Outcome.do_eq_ok_iff.1 h
    rw [← Outcome.pure_eq_ok_iff.1 h]
    exact ⟨_, rfl, he⟩
  · obtain ⟨e, he, h⟩ := Outcome.do_eq_ok_iff.1 h
    rw [← Outcome.pure_eq_ok_iff.1 h]
    exact ⟨_, rfl, he⟩
  · obtain ⟨e, he, h⟩ := Outcome.do_eq_ok_iff.1 h
    obtain ⟨o, -, h⟩ := Outcome.do_eq_ok_iff.1 h
    rw [← Outcome.pure_eq_ok_iff.1 h]
    exact ⟨_, rfl, he⟩
  · cases h

/-- Values under other keys have the descriptor that the written type stands for. -/
theorem read_of_additionalOfValue {v : Value} {e : Descriptor × PropertyOptions}
    (h : additionalOfValue v = .ok (some e)) :
    ∃ t, v.additionalType? = some t ∧ Shorthand.read t = .ok e.1 := by
  unfold additionalOfValue at h
  split at h
  · cases h
  · obtain ⟨d, hd, h⟩ := Outcome.do_eq_ok_iff.1 h
    rw [← Option.some.inj (Outcome.pure_eq_ok_iff.1 h)]
    exact ⟨_, rfl, hd⟩
  · obtain ⟨d, hd, h⟩ := Outcome.do_eq_ok_iff.1 h
    obtain ⟨o, -, h⟩ := Outcome.do_eq_ok_iff.1 h
    rw [← Option.some.inj (Outcome.pure_eq_ok_iff.1 h)]
    exact ⟨_, rfl, hd⟩
  · rename_i hnull hpair hdict
    obtain ⟨d, hd, h⟩ := Outcome.do_eq_ok_iff.1 h
    rw [← Option.some.inj (Outcome.pure_eq_ok_iff.1 h)]
    refine ⟨v, ?_, hd⟩
    -- None of the forms with options applies.
    unfold Value.additionalType?
    split
    · exact absurd rfl hnull
    · exact absurd rfl (hpair _)
    · exact absurd rfl (hdict _ _)
    · rfl

namespace Definition

variable {P : Descriptor → Prop} {d : ObjectDeclaration}

/-- What is known of every descriptor that is read from a type whose instances have a property is
    known of the declared properties of a definition whose instances have it. -/
theorem forall_spec (hread : ∀ {v e}, Shorthand.read v = .ok e → (∀ x ∈ v.instances, P x) → P e)
    (h : ∀ e ∈ (Definition.object d).instances, P e) :
    ∀ declaration ∈ d.properties, ∀ spec, PropertySpec.ofDeclaration declaration = .ok spec →
      P spec.descriptor := by
  intro declaration hmem spec hspec
  obtain ⟨v, hv, hvread⟩ := PropertySpec.read_of_ofDeclaration hspec
  have htypes : v ∈ (Definition.object d).types :=
    List.mem_append_left _ (List.mem_filterMap.2 ⟨declaration, hmem, hv⟩)
  exact hread hvread fun x hx => h x (mem_instances htypes hx)

/-- So it is of the type of values under other keys. -/
theorem forall_additional
    (hread : ∀ {v e}, Shorthand.read v = .ok e → (∀ x ∈ v.instances, P x) → P e)
    (h : ∀ e ∈ (Definition.object d).instances, P e) :
    ∀ e, additionalOfValue d.additional = .ok (some e) → P e.1 := by
  intro e he
  obtain ⟨v, hv, hvread⟩ := read_of_additionalOfValue he
  have htypes : v ∈ (Definition.object d).types := by
    apply List.mem_append_right
    rw [hv]
    exact List.mem_singleton_self v
  exact hread hvread fun x hx => h x (mem_instances htypes hx)

/-- The assembly of a definition never comes across anything that is no descriptor, when all parts of
    the descriptors that it is passed are descriptors. -/
theorem recognizes_define (c : Catalog) (elsewhere : ShapeHandle → Option Shape) {d : Definition}
    (h : ∀ e ∈ d.instances, e.WellFormed = true) :
    Outcome.Recognizes (c.define elsewhere d).result := by
  cases d with
  | type d =>
    refine Catalog.recognizes_defineType fun descriptor hread => ?_
    exact Shorthand.wellFormed_of_read hread fun e he =>
      h e (mem_instances (List.mem_singleton_self d.type) he)
  | object d =>
    exact Catalog.recognizes_defineObject (forall_spec Shorthand.wellFormed_of_read h)
      (forall_additional Shorthand.wellFormed_of_read h)

end Definition

/-! ### Catalogs of definitions with a property -/

namespace Catalog

variable {D : Definition → Prop} {c : Catalog}

/-- The catalog is reached by definitions with the property, and so are all catalogs from which
    shapes are extended. -/
inductive ReachedBy (D : Definition → Prop) : Catalog → Prop
  | empty (id : String) : ReachedBy D { id := id }
  | step {c : Catalog} (elsewhere : ShapeHandle → Option Shape) (other : ShapeHandle → Catalog)
      (d : Definition) : ReachedBy D c → (∀ h s, elsewhere h = some s → ReachedBy D (other h)) →
      (∀ h s, elsewhere h = some s → s ∈ (other h).definitions) → D d →
      ReachedBy D (c.step elsewhere d)

/-- Definitions with the property lead from one such catalog to another. -/
theorem ReachedBy.after (hc : c.ReachedBy D) {ds : List Definition} (hds : ∀ d ∈ ds, D d) :
    (c.after ds).ReachedBy D := by
  induction ds generalizing c with
  | nil => exact hc
  | cons d ds ih =>
    rw [after_cons]
    have hstep : (c.step (fun _ => none) d).ReachedBy D :=
      .step (fun _ => none) (fun _ => default) d hc (by simp) (by simp) (hds d List.mem_cons_self)
    exact ih hstep fun e he => hds e (List.mem_cons_of_mem _ he)

/-- A shape declares unions with members when the definition that it comes from is passed no others
    and what it extends declares no others. -/
theorem populated_of_define {elsewhere : ShapeHandle → Option Shape} {d : Definition} {c' : Catalog}
    {s : Shape} (h : ∀ e ∈ d.instances, e.Populated) (hc : ∀ t ∈ c.definitions, t.Populated)
    (helse : ∀ handle p, elsewhere handle = some p → p.Populated)
    (hdefine : (c.define elsewhere d).result = .ok (c', s)) : s.Populated := by
  cases d with
  | type d =>
    obtain ⟨args, t, hargs, -, -, rfl, -⟩ := defineType_eq_ok_iff.1 hdefine
    obtain ⟨-, hread, -⟩ := typeArguments_eq_ok_iff.1 hargs
    have hdescriptor : args.descriptor.Populated := Shorthand.populated_of_read hread fun e he =>
      h e (Definition.mem_instances (List.mem_singleton_self d.type) he)
    refine ⟨fun e he => ?_, fun spec hspec => ?_, fun e he => ?_⟩
    · obtain rfl : args.descriptor = e := Option.some.inj he
      exact hdescriptor
    · cases hspec
    · cases he
  | object d =>
    obtain ⟨args, t, hargs, -, -, rfl, -⟩ := defineObject_eq_ok_iff.1 hdefine
    obtain ⟨-, -, hspecs, hadditional, hparent, -⟩ := objectArguments_eq_ok_iff.1 hargs
    refine ⟨nofun, fun spec hspec => ?_, fun e he => ?_⟩
    · rcases Inheritance.mem_merge hspec with hspec | hspec
      · -- The property is one of the extended shape, which is known already.
        cases hp : args.parent with
        | none => simp [hp] at hspec
        | some p =>
          simp only [hp, Option.map_some, Option.getD_some] at hspec
          rcases (mem_of_extended (hp ▸ hparent)).1 with hmem | ⟨handle, hmem⟩
          · exact (hc p hmem).specs spec hspec
          · exact (helse handle p hmem).specs spec hspec
      · obtain ⟨own, hown, rfl⟩ := List.mem_map.1 hspec
        obtain ⟨declaration, hmem, heq⟩ :=
          Outcome.mem_of_forall₂ (Outcome.mapM_eq_ok_iff.1 hspecs) hown
        exact Definition.forall_spec Shorthand.populated_of_read h declaration hmem own heq
    · have he' : args.additional = some e := he
      exact Definition.forall_additional Shorthand.populated_of_read h e (he' ▸ hadditional)

/-- In catalogs that are reached by definitions that are passed unions with members, all shapes declare
    unions with members. -/
theorem ReachedBy.reachedAmong (hc : c.ReachedBy fun d => ∀ e ∈ d.instances, e.Populated) :
    c.ReachedAmong Shape.Populated := by
  induction hc with
  | empty id => exact .empty id
  | @step c elsewhere other d _ _ hmem hd ih ihother =>
    refine .step elsewhere other d ih ihother hmem fun s hs => ?_
    unfold Catalog.step at hs
    cases hdefine : (c.define elsewhere d).result with
    | error p =>
      rw [hdefine] at hs
      exact ih.forall_mem s hs
    | ok x =>
      obtain ⟨c', t⟩ := x
      obtain ⟨rfl, ht⟩ := finishes_of_define hdefine
      rw [hdefine] at hs
      change s ∈ (c.add t).definitions at hs
      -- The shapes that were there before are known; the new one is that of the definition.
      rw [definitions_add ht.name_not_mem] at hs
      rcases List.mem_append.1 hs with hs | hs
      · exact ih.forall_mem s hs
      · rw [List.mem_singleton.1 hs]
        exact populated_of_define hd ih.forall_mem
          (fun handle p hp => (ihother handle p hp).forall_mem p (hmem handle p hp)) hdefine

/-- In such catalogs no type signature holds a union without members. -/
theorem ReachedBy.union_nil_not_mem (hc : c.ReachedBy fun d => ∀ e ∈ d.instances, e.Populated)
    {s : Shape} (hs : s ∈ c.definitions) : TypeExpr.union [] ∉ s.signature.parts := by
  have htidy : ∀ s ∈ c.definitions, s.Tidy := hc.reachedAmong.forall_shape
    fun _ _ hbefore hdeclared hs => hs.tidy hdeclared hbefore
  intro hunion
  obtain ⟨htwo, -⟩ := (htidy s hs).signature _ hunion
  rw [List.length_nil] at htwo
  omega

/-- Written types are read into descriptors that are in order, when the descriptors that are passed in
    them are.  First, all parts of what a written type stands for are descriptors when those of the
    descriptors in it are, and it holds no union without members when these hold none.  Therefore a
    definition that is passed descriptors with no other parts never comes across one it does not know;
    and in catalogs that are reached by definitions that are passed no unions without members, and
    that extend shapes only of catalogs that are reached in this way too, no type signature holds one
    at any depth. -/
theorem coercion_in_order :
    (∀ (v : Value) (d : Descriptor), Shorthand.read v = .ok d →
        ((∀ e ∈ v.instances, e.WellFormed = true) → d.WellFormed = true)
          ∧ ((∀ e ∈ v.instances, e.Populated) → d.Populated))
      ∧ (∀ (c : Catalog) (elsewhere : ShapeHandle → Option Shape) (d : Definition),
          (∀ e ∈ d.instances, e.WellFormed = true) → ∀ (descriptor : Descriptor) (property : String),
            (c.define elsewhere d).result ≠ .error (.unknownDescriptor descriptor property))
      ∧ ∀ (c : Catalog), (c.ReachedBy fun d => ∀ e ∈ d.instances, e.Populated) →
          ∀ s ∈ c.definitions, TypeExpr.union [] ∉ s.signature.parts := by
  refine ⟨fun v d hread => ⟨?_, ?_⟩, ?_, ?_⟩
  · exact Shorthand.wellFormed_of_read hread
  · exact Shorthand.populated_of_read hread
  · exact fun c elsewhere d h => Definition.recognizes_define c elsewhere h
  · exact fun c hc s hs => hc.union_nil_not_mem hs

/-- A list of an array descriptor and the name of a scalar stands for a union in order; and the
    definitions of entities and pages are passed descriptors in order. -/
theorem coercion_in_order_pages :
    (∃ d, Shorthand.read (.list [.descriptor (.array (.scalar .string)), .str "int"]) = .ok d
        ∧ d.WellFormed = true ∧ d.Populated)
      ∧ (∀ descriptor property, (Pages.started.define (fun _ => none) (.object Pages.pages)).result
          ≠ .error (.unknownDescriptor descriptor property))
      ∧ Pages.page ∈ Pages.catalog.definitions
      ∧ TypeExpr.union [] ∉ Pages.page.signature.parts := by
  obtain ⟨hread, hdefine, hsignature⟩ := coercion_in_order
  have hplain : ∀ d ∈ [Descriptor.scalar .string, .array (.scalar .string)],
      d.WellFormed = true ∧ d.Populated := by
    intro d hd
    simp only [List.mem_cons, List.not_mem_nil, or_false] at hd
    rcases hd with rfl | rfl
    · exact ⟨rfl, fun members hmembers => by simp [Descriptor.parts] at hmembers⟩
    · exact ⟨rfl, fun members hmembers => by simp [Descriptor.parts] at hmembers⟩
  have hentities : ∀ e ∈ (Definition.object Pages.entities).instances,
      e ∈ [Descriptor.scalar .string, .array (.scalar .string)] := by
    have heq : (Definition.object Pages.entities).instances
        = [.scalar .string, .array (.scalar .string), .scalar .string] := rfl
    rw [heq]
    simp
  have hpages : ∀ e ∈ (Definition.object Pages.pages).instances,
      e ∈ [Descriptor.scalar .string, .array (.scalar .string)] := by
    have heq : (Definition.object Pages.pages).instances = [.scalar .string, .scalar .string] := rfl
    rw [heq]
    simp
  refine ⟨⟨_, rfl, ?_⟩, ?_, Pages.page_mem_definitions, ?_⟩
  · obtain ⟨hwell, hpopulated⟩ :=
      hread (.list [.descriptor (.array (.scalar .string)), .str "int"]) _ rfl
    have hinstances : ∀ e ∈ (Value.list [.descriptor (.array (.scalar .string)), .str "int"]).instances,
        e ∈ [Descriptor.scalar .string, .array (.scalar .string)] := by
      have heq : (Value.list [.descriptor (.array (.scalar .string)), .str "int"]).instances
          = [.array (.scalar .string)] := rfl
      rw [heq]
      simp
    exact ⟨hwell fun e he => (hplain e (hinstances e he)).1,
      hpopulated fun e he => (hplain e (hinstances e he)).2⟩
  · exact hdefine Pages.started _ _ fun e he => (hplain e (hpages e he)).1
  · have hreached : Pages.catalog.ReachedBy fun d => ∀ e ∈ d.instances, e.Populated := by
      rw [← Pages.after_pages]
      apply ReachedBy.after (.empty "")
      intro d hd
      simp only [List.mem_cons, List.not_mem_nil, or_false] at hd
      rcases hd with rfl | rfl
      · exact fun e he => (hplain e (hentities e he)).2
      · exact fun e he => (hplain e (hpages e he)).2
    exact hsignature Pages.catalog hreached Pages.page Pages.page_mem_definitions

/-- A descriptor that was put together by hand is taken as it is.  Where the name of a scalar stands in
    the place of its items, not all parts of what is read are descriptors, and a definition that is
    passed it comes across the name; and a union without members stays one.  The definition of crates
    is passed no descriptors at all, but it takes over such a union from the other catalog. -/
theorem instance_taken_as_it_is :
    Shorthand.read (.descriptor (.array (.raw (.str "string")))) = .ok (.array (.raw (.str "string")))
      ∧ (Descriptor.array (.raw (.str "string"))).WellFormed = false
      ∧ (({} : Catalog).define (fun _ => none) (.type
            { name := .str "Names", type := .descriptor (.array (.raw (.str "string"))) })).result
          = .error (.unknownDescriptor (.raw (.str "string")) "Names")
      ∧ Shorthand.read (.descriptor (.union [])) = .ok (.union [])
      ∧ (Definition.object Borrowed.crates).instances = []
      ∧ ({} : Catalog).step Borrowed.elsewhere (.object Borrowed.crates) = Borrowed.catalog
      ∧ Borrowed.catalog.Reached ∧ Borrowed.crate ∈ Borrowed.catalog.definitions
      ∧ TypeExpr.union [] ∈ Borrowed.crate.signature.parts :=
  ⟨rfl, rfl, rfl, rfl, rfl, Borrowed.step_crates, Borrowed.reached_catalog, List.mem_cons_self,
    Borrowed.union_nil_mem⟩

end Catalog

end DataShapes
