import DataShapes.Proofs.Catalog.Views
import DataShapes.Proofs.TypeExpr.Canonical

/-!
# Signatures are in canonical form

No union of a type signature has fewer than two members or a union among its members, and null is at
most the last member.  An object embeds shapes and takes over fields, so this rests on all shapes that
its definition saw: those of its catalog and, when it extends a shape from elsewhere, those of the
other catalog.  It takes that all unions that are declared in these catalogs have members.

Main definitions:
* `Shape.Populated`: every union that a shape declares has a member;
* `Catalog.ReachedAmong`: a catalog is reached, and all shapes on the way have a property.

Main statements:
* `Catalog.ReachedAmong.forall_shape`: induction over the shapes of such catalogs;
* `Catalog.Reachable.reachedAmong_iff`: without other catalogs this is a property of the shapes;
* `Catalog.ReachedAmong.unions_canonical`: all unions in type signatures are canonical;
* `Catalog.Reached.union_taken_over`: the other catalogs matter, since a union without members can be
  taken over from one.
-/

namespace DataShapes

/-! ### Catalogs of shapes with a property -/

namespace Catalog

variable {Q : Shape → Prop} {c : Catalog}

/-- The catalog is reached, and its shapes and those of all catalogs from which shapes are extended
    have the property. -/
inductive ReachedAmong (Q : Shape → Prop) : Catalog → Prop
  | empty (id : String) : ReachedAmong Q { id := id }
  | step {c : Catalog} (elsewhere : ShapeHandle → Option Shape) (other : ShapeHandle → Catalog)
      (d : Definition) : ReachedAmong Q c → (∀ h s, elsewhere h = some s → ReachedAmong Q (other h)) →
      (∀ h s, elsewhere h = some s → s ∈ (other h).definitions) →
      (∀ s ∈ (c.step elsewhere d).definitions, Q s) → ReachedAmong Q (c.step elsewhere d)

/-- The shapes of such a catalog have the property. -/
theorem ReachedAmong.forall_mem (h : c.ReachedAmong Q) : ∀ s ∈ c.definitions, Q s := by
  cases h with
  | empty id => simp [definitions, Table.values]
  | step _ _ _ _ _ _ hQ => exact hQ

/-- Induction over the shapes of reached catalogs: a property of every shape is proved for a shape that
    a definition ends with, when all shapes of its catalog and the one that it extends have it. -/
theorem ReachedAmong.forall_shape {P : Shape → Prop}
    (h : ∀ (c : Catalog) (s : Shape), (∀ t ∈ c.definitions, P t) → Q s → c.Finishes P s → P s)
    (hc : c.ReachedAmong Q) : ∀ s ∈ c.definitions, P s := by
  induction hc with
  | empty id => simp [definitions, Table.values]
  | @step c elsewhere other d _ _ hmem hQ ih ihother =>
    -- A step leaves the catalog alone or adds one shape, whose parent may come from elsewhere.
    rcases step_cases c elsewhere d with heq | ⟨s, heq, hs⟩
    · rw [heq]
      exact ih
    · rw [heq, definitions_add hs.name_not_mem] at hQ ⊢
      intro t ht
      rcases List.mem_append.1 ht with hmem' | hself
      · exact ih t hmem'
      · obtain rfl := List.mem_singleton.1 hself
        refine h c t ih (hQ t ht) (hs.mono fun p hp => ?_)
        rcases hp with hp | ⟨handle, hp⟩
        · exact ih p hp
        · exact ihother handle p hp p (hmem handle p hp)

end Catalog

/-! ### Unions that are declared -/

/-- Every union in the declarations of the shape has a member. -/
structure Shape.Populated (s : Shape) : Prop where
  descriptor : ∀ d, s.descriptor? = some d → d.Populated
  specs : ∀ spec ∈ s.specs, spec.descriptor.Populated
  additional : ∀ e, s.additional = some e → e.1.Populated

/-- What later definitions take from a shape: no property is declared twice, the unions in its schema
    have members, and those in its signature are canonical. -/
structure Shape.Tidy (s : Shape) : Prop where
  distinct : s.DistinctProperties
  schema : s.schema.Each Schema.Populated
  signature : s.signature.Each TypeExpr.Canonical

/-- The schema of a type shape has unions with members. -/
theorem TypeArguments.each_populated {args : TypeArguments} {c : Catalog}
    (hdeclared : args.descriptor.Populated)
    (hc : ∀ t ∈ c.definitions, t.schema.Each Schema.Populated) :
    (args.schema c).Each Schema.Populated := by
  have hbuilt : (args.built c).Each Schema.Populated :=
    args.each_built_of_plain (fun _ _ hs => hs hdeclared) hc
  rcases args.schema_cases c with heq | ⟨f, ps, i, a, ms, hs, heq, -⟩
  · rw [heq, Schema.each_node_iff, Schema.populated_node_iff]
    exact ⟨fun _ => List.cons_ne_nil _ _, nofun, nofun, by simpa using hbuilt, by simp⟩
  · rw [hs, Schema.each_node_iff, Schema.populated_node_iff] at hbuilt
    rw [heq, Schema.each_node_iff, Schema.populated_node_iff]
    exact hbuilt

namespace ObjectArguments

variable {args : ObjectArguments} {c : Catalog}

/-- What an object declares itself is among its declarations. -/
theorem populated {t : TypeExpr} (h : args.Accepted c)
    (hparent : ∀ p, args.parent = some p → p.DistinctProperties)
    (hs : (args.shape c t).Populated) : args.Populated where
  own spec hspec := by
    refine hs.specs spec ?_
    have hinherited := nodup_inheritedSpecs fun p hp => (hparent p hp).specs
    exact (Inheritance.mem_merge_iff hinherited (nodup_own h)).2 (.inl hspec)
  additional := hs.additional

/-- The schema of an object shape has unions with members. -/
theorem each_populated (hdeclared : args.Populated)
    (hc : ∀ t ∈ c.definitions, t.schema.Each Schema.Populated)
    (hparent : ∀ p, args.parent = some p → p.schema.Each Schema.Populated) :
    (args.schema c).Each Schema.Populated := by
  refine Schema.each_iff.2 ⟨?_, ?_⟩
  · rw [schema, Assembly.objectBuilt_eq]
    exact Schema.populated_of_kind_ne (by rintro ⟨⟩)
  · exact args.each_child_of_plain (fun _ _ hs => hs hdeclared) hc
      fun p hp _ hm => (hparent p hp).child hm

end ObjectArguments

namespace Catalog

variable {c : Catalog} {s : Shape}

/-- The schema of a shape that a definition ends with has unions with members. -/
theorem Finishes.each_populated (hs : c.Finishes Shape.Tidy s) (hdeclared : s.Populated)
    (hc : ∀ t ∈ c.definitions, t.Tidy) : s.schema.Each Schema.Populated := by
  cases hs with
  | type args t _ _ _ _ =>
    exact TypeArguments.each_populated (hdeclared.descriptor _ rfl) fun t ht => (hc t ht).schema
  | object args t _ _ hparent haccepted _ =>
    exact ObjectArguments.each_populated
      (ObjectArguments.populated haccepted (fun p hp => (hparent p hp).1.distinct) hdeclared)
      (fun t ht => (hc t ht).schema) fun p hp => (hparent p hp).1.schema

/-- A shape that a definition ends with is tidy when the shapes before it are. -/
theorem Finishes.tidy (hs : c.Finishes Shape.Tidy s) (hdeclared : s.Populated)
    (hc : ∀ t ∈ c.definitions, t.Tidy) : s.Tidy := by
  have hdistinct : s.DistinctProperties :=
    hs.distinctProperties (fun t ht => (hc t ht).distinct) fun p hp => hp.distinct
  have hpopulated : s.schema.Each Schema.Populated := hs.each_populated hdeclared hc
  refine ⟨hdistinct, hpopulated, ?_⟩
  -- A nullable object is a union of its record and null; all other unions were read.
  refine hs.each_signature (fun p hp => hp.signature) (fun _ u hu => ?_) (fun _ n hn u hu => ?_)
    (fun _ _ _ => trivial) (fun _ _ _ => ?_) trivial
  · exact TypeExpr.canonical_ofNormalForm hpopulated hdistinct.schema hu
  · exact TypeExpr.canonical_ofNormalForm (hpopulated.child hn) (hdistinct.schema.child hn) hu
  · exact ⟨Nat.le_refl 2, by simp, by simp⟩

/-- Entities and pages declare no unions at all. -/
theorem Pages.populated : ∀ s ∈ Pages.catalog.definitions, s.Populated := by
  have hplain : ∀ d ∈ [Descriptor.scalar .string, .array (.scalar .string)], d.Populated := by
    intro d hd members hmembers
    simp only [List.mem_cons, List.not_mem_nil, or_false] at hd
    rcases hd with rfl | rfl <;> simp [Descriptor.parts] at hmembers
  have hobject : ∀ s : Shape, s.descriptor? = none → s.additional = none →
      (∀ d ∈ s.specs.map PropertySpec.descriptor,
        d ∈ [Descriptor.scalar .string, .array (.scalar .string)]) → s.Populated := by
    intro s hdescriptor hadditional hspecs
    refine ⟨by simp [hdescriptor], fun spec hspec => ?_, by simp [hadditional]⟩
    exact hplain _ (hspecs _ (List.mem_map_of_mem hspec))
  have hpage : Pages.page.specs.map PropertySpec.descriptor
      = [.scalar .string, .array (.scalar .string), .scalar .string, .scalar .string] := rfl
  have hentity : Pages.entity.specs.map PropertySpec.descriptor
      = [.scalar .string, .array (.scalar .string), .scalar .string] := rfl
  have hdefinitions : Pages.catalog.definitions = [Pages.entity, Pages.page] := rfl
  rw [hdefinitions, List.forall_mem_cons, List.forall_mem_singleton]
  exact ⟨hobject _ rfl rfl (by simp [hentity]), hobject _ rfl rfl (by simp [hpage])⟩

namespace Borrowed

/-- A type without any values: a union that has no members. -/
def nothing : TypeDeclaration := { name := .str "Nothing", type := .descriptor (.union []) }

/-- Boxes hold nothing, whose type is embedded. -/
def boxes : ObjectDeclaration :=
  { name := .str "Box",
    properties := [.spec ⟨"content", .named "Nothing", { inline := some true }⟩] }

/-- Crates extend boxes of the other catalog and declare nothing themselves. -/
def crates : ObjectDeclaration :=
  { name := .str "Crate",
    options := [(.str "extends", .shape ⟨"other", "Box", "Box", true⟩)] }

/-- The shape of nothing. -/
def emptyType : Shape :=
  TypeArguments.shape ⟨"Nothing", "Nothing", .union [], {}⟩ { id := "other" } (.union [])

/-- The catalog of nothing. -/
def started : Catalog := ({ id := "other" } : Catalog).add emptyType

/-- What the definition of boxes says. -/
def boxArguments : ObjectArguments :=
  ⟨"Box", "Box", {}, [⟨"content", .named "Nothing", { inline := some true }⟩], none, none⟩

/-- The record of an object with nothing as its content. -/
def record (name : String) : TypeExpr :=
  .record (some name) [.mk "content" (.union []) true] .fixedRecord none

/-- The shape of boxes. -/
def box : Shape := boxArguments.shape started (record "Box")

/-- The catalog of nothing and boxes. -/
def other : Catalog := started.add box

/-- The shapes of the other catalog, found by their names. -/
def elsewhere (handle : ShapeHandle) : Option Shape := other.shapes.get? handle.name

/-- What the definition of crates says. -/
def crateArguments : ObjectArguments :=
  ⟨"Crate", "Crate", { base := .shape ⟨"other", "Box", "Box", true⟩ }, [], none, some box⟩

/-- The shape of crates. -/
def crate : Shape := crateArguments.shape {} (record "Crate")

/-- The catalog of crates. -/
def catalog : Catalog := ({} : Catalog).add crate

/-- The other catalog is reached by the definitions of nothing and boxes. -/
theorem reached_other : other.Reached := by
  have hread : TypeArguments.signature ⟨"Nothing", "Nothing", .union [], {}⟩ { id := "other" }
      = .ok (.union []) := by
    refine (TypeExpr.ofSchema_union_eq_ok_iff ?_).2 ⟨[], ?_, rfl⟩
    · rfl
    · exact .nil
  have hnothing : (({ id := "other" } : Catalog).defineType nothing).result
      = .ok (started, emptyType) :=
    defineType_eq_ok_iff.2 ⟨⟨"Nothing", "Nothing", .union [], {}⟩, _, rfl, rfl, hread, rfl, rfl⟩
  have haccepted : boxArguments.Accepted started := by
    refine ⟨by decide, rfl, fun s hs => ?_, fun e he => ?_, fun p hp => ?_⟩
    · rw [List.mem_singleton.1 hs]
      rfl
    · cases he
    · cases hp
  have hbox : (started.defineObject (fun _ => none) boxes).result = .ok (other, box) := by
    refine defineObject_eq_ok_iff.2 ⟨boxArguments, _, rfl, haccepted, ?_, rfl, rfl⟩
    refine (TypeExpr.ofObject_eq_ok_iff (by decide)).2 ⟨_, _, TypeExpr.fieldsOf_eq_ok_iff.2
      (.cons ⟨.union [], ?_, rfl⟩ .nil), rfl, rfl⟩
    refine (TypeExpr.ofSchema_union_eq_ok_iff ?_).2 ⟨[], ?_, rfl⟩
    · rfl
    · exact .nil
  refine Reachable.reached ⟨"other", [.type nothing, .object boxes], ?_⟩
  have hstep : ({ id := "other" } : Catalog).step (fun _ => none) (.type nothing) = started := by
    rw [step, define, hnothing]
  rw [after_cons, after_cons, after_nil, hstep, step, define, hbox]

/-- The field of crates is taken over with its type. -/
theorem step_crates : ({} : Catalog).step elsewhere (.object crates) = catalog := by
  have haccepted : crateArguments.Accepted {} := by
    refine ⟨by decide, rfl, fun s hs => ?_, fun e he => ?_, fun p hp => ?_⟩
    · cases hs
    · cases he
    · cases hp
      rfl
  -- The node of the content is that of the box, so the type is not read again.
  have hsignature : crateArguments.signature {} = .ok (record "Crate") :=
    (TypeExpr.ofObject_eq_ok_iff (by decide)).2 ⟨_, _, TypeExpr.fieldsOf_eq_ok_iff.2
      (.cons ⟨_, rfl, rfl⟩ .nil), rfl, rfl⟩
  have hcrate : (({} : Catalog).defineObject elsewhere crates).result = .ok (catalog, crate) :=
    defineObject_eq_ok_iff.2 ⟨crateArguments, _, rfl, haccepted, hsignature, rfl, rfl⟩
  rw [step, define, hcrate]

/-- Crates are defined in an empty catalog, with boxes of the other one to extend. -/
theorem reached_catalog : catalog.Reached := by
  rw [← step_crates]
  refine .step elsewhere (fun _ => other) (.object crates) (.empty "") (fun _ _ _ => reached_other)
    fun handle s hs => ?_
  exact List.mem_map_of_mem (Table.mem_of_get? hs)

/-- The content of a crate is a union without members. -/
theorem union_nil_mem : TypeExpr.union [] ∈ crate.signature.parts := by
  simp [crate, ObjectArguments.shape, record, TypeExpr.parts, TypeExpr.partsOfFields]

/-- No union is declared in the catalog of crates. -/
theorem populated : ∀ s ∈ catalog.definitions, s.Populated := by
  intro s hs
  obtain rfl : s = crate := List.mem_singleton.1 hs
  refine ⟨fun d hd => ?_, fun spec hspec => ?_, fun e he => ?_⟩
  · cases hd
  · -- The only declaration is that of the box, which names a shape.
    obtain rfl : spec
        = ⟨"content", .named "Nothing", { required := some true, inline := some true }⟩ :=
      List.mem_singleton.1 hspec
    intro members hmembers
    simp [Descriptor.parts] at hmembers
  · cases he

end Borrowed

end Catalog

end DataShapes
