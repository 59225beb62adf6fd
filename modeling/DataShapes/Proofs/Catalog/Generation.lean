import DataShapes.Proofs.Catalog.Meaning

/-!
# Signatures of assembled schemas

Once the schema of a shape is assembled nothing can go wrong any more: the registry of the
definition knows every reference and every embedded object in the schema, so the type signature can
be read off it and the shape is registered.

Main definitions:
* `Registry.Complete`: a registry knows the references and the embedded objects among some nodes;
* `Shape.FromReached`: a shape of some reached catalog.

Main statements:
* `Catalog.Reached.generation`: signature generation never fails, and it names shapes only.
-/

namespace DataShapes

/-- The registry has every reference among the nodes and the title of every titled object among the
    embedded ones. -/
structure Registry.Complete (r : Registry) (nodes embedded : List Schema) : Prop where
  references {path} : Schema.reference path ∈ nodes → (r.resolve path).isSome = true
  embedded {n title} : n ∈ embedded → n.isObject = true → n.title = some title →
    (r.inlined.get? title).isSome = true

/-- The shape belongs to some reached catalog. -/
def Shape.FromReached (s : Shape) : Prop := ∃ c : Catalog, c.Reached ∧ s ∈ c.definitions

/-- The registry of a shape from any reached catalog knows all references in its schema. -/
theorem Shape.FromReached.covered {s : Shape} (h : s.FromReached) : s.Covered := by
  obtain ⟨c, hc, hs⟩ := h
  exact hc.covered s hs

namespace TypeArguments

variable {args : TypeArguments} {c : Catalog} {s : Schema} {r : Registry}

/-- An assembled schema of a type shape is known to the registry of the definition. -/
theorem complete_of_assembled (hc : c.Reached)
    (h : ((args.assembly c).schemaOf args.name args.descriptor args.options
      { owner := some args.name }).result = .ok (s, r)) : r.Complete s.nodes s.nodes := by
  obtain ⟨haccepted, rfl, rfl⟩ := (args.schemaOf_eq_ok_iff c).1 h
  have hbuilt := each_built hc.covered haccepted
    (Registry.holds_write { owner := some args.name } _)
  exact ⟨fun hn => (hbuilt _ hn).1, fun hn hobject htitle => (hbuilt _ hn).2 hobject _ htitle⟩

/-- Once the schema of a type shape is assembled, the shape is registered. -/
theorem defineType_of_assembled (hc : c.Reached) {d : TypeDeclaration}
    (hargs : c.typeArguments d = .ok args)
    (h : ((args.assembly c).schemaOf args.name args.descriptor args.options
      { owner := some args.name }).result = .ok (s, r)) :
    ∃ t, TypeExpr.ofNormalForm r.close (Catalog.titledSchema args.title args.descriptor s) = .ok t
      ∧ (c.defineType d).result = .ok (c.add (args.shape c t), args.shape c t) := by
  obtain ⟨haccepted, rfl, rfl⟩ := (args.schemaOf_eq_ok_iff c).1 h
  obtain ⟨t, ht⟩ := signature_total hc.covered haccepted
  exact ⟨t, ht, Catalog.defineType_eq_ok_iff.2 ⟨args, t, hargs, haccepted, ht, rfl, rfl⟩⟩

end TypeArguments

namespace ObjectArguments

variable {args : ObjectArguments} {c : Catalog} {elsewhere : ShapeHandle → Option Shape}
  {d : ObjectDeclaration} {s : Schema} {r : Registry}

/-- What is extended has a registry that knows its schema. -/
theorem covered_parent (hc : c.Reached) (helse : ∀ h p, elsewhere h = some p → p.FromReached)
    (hargs : c.objectArguments elsewhere d = .ok args) :
    ∀ p, args.parent = some p → p.Covered := by
  intro p hp
  obtain ⟨-, -, -, -, hparent, -⟩ := Catalog.objectArguments_eq_ok_iff.1 hargs
  rcases (Catalog.mem_of_extended (hp ▸ hparent)).1 with hmem | ⟨handle, hhandle⟩
  · exact hc.covered p hmem
  · exact (helse handle p hhandle).covered

/-- What is embedded in an assembled object is known to the registry of the definition. -/
theorem complete_of_assembled (hc : c.Reached)
    (helse : ∀ h p, elsewhere h = some p → p.FromReached)
    (hargs : c.objectArguments elsewhere d = .ok args)
    (h : ((args.assembly c).objectSchema args.name args.specs args.additional args.options
      args.parent { owner := some args.name }).result = .ok (s, r)) :
    r.Complete s.nodes s.innerNodes := by
  obtain ⟨haccepted, rfl, rfl⟩ := (args.objectSchema_eq_ok_iff c).1 h
  have hchild := each_child hc.covered (covered_parent hc helse hargs) haccepted
    (Registry.holds_write { owner := some args.name } _)
  -- The node itself is written last; below it everything comes from a child or from the parent.
  have hinner : ∀ n ∈ (args.schema c).innerNodes, Assembly.Knows (args.registry c) n := by
    intro n hn
    obtain ⟨m, hm, hn⟩ := Schema.mem_innerNodes_iff.1 hn
    exact hchild m hm n hn
  constructor
  · intro path hpath
    rcases Schema.mem_nodes_iff.1 hpath with hroot | hpath
    · rw [schema, Assembly.objectBuilt_eq] at hroot
      cases hroot
    · exact (hinner _ hpath).1
  · intro n title hn hobject htitle
    exact (hinner n hn).2 hobject title htitle

/-- Once the schema of an object shape is assembled, the shape is registered. -/
theorem defineObject_of_assembled (hc : c.Reached)
    (helse : ∀ h p, elsewhere h = some p → p.FromReached)
    (hargs : c.objectArguments elsewhere d = .ok args)
    (h : ((args.assembly c).objectSchema args.name args.specs args.additional args.options
      args.parent { owner := some args.name }).result = .ok (s, r)) :
    ∃ t, TypeExpr.ofObject r.close s args.options (some args.name)
        (args.parent.map Shape.inherited) = .ok t
      ∧ (c.defineObject elsewhere d).result = .ok (c.add (args.shape c t), args.shape c t) := by
  obtain ⟨haccepted, rfl, rfl⟩ := (args.objectSchema_eq_ok_iff c).1 h
  obtain ⟨hname, -⟩ := Catalog.objectArguments_eq_ok_iff.1 hargs
  obtain ⟨t, ht⟩ := signature_total (Catalog.newName_eq_ok_iff.1 hname).2.1 hc.covered
    (covered_parent hc helse hargs) haccepted
  exact ⟨t, ht, Catalog.defineObject_eq_ok_iff.2 ⟨args, t, hargs, haccepted, ht, rfl, rfl⟩⟩

end ObjectArguments

namespace Catalog

/-- Signature generation never fails.  In a reached catalog, a definition whose schema is assembled
    has a registry with every reference in the schema and every titled object that is embedded in
    it, its signature is read off, and the shape is registered.  When nothing from elsewhere is
    extended, the signatures name shapes of the catalog only. -/
theorem Reached.generation {c : Catalog} (hc : c.Reached) :
    (∀ (d : TypeDeclaration) (args : TypeArguments) (s : Schema) (r : Registry),
      c.typeArguments d = .ok args →
      ((args.assembly c).schemaOf args.name args.descriptor args.options
        { owner := some args.name }).result = .ok (s, r) →
      r.Complete s.nodes s.nodes
        ∧ ∃ t, TypeExpr.ofNormalForm r.close (titledSchema args.title args.descriptor s) = .ok t
          ∧ (c.defineType d).result = .ok (c.add (args.shape c t), args.shape c t))
    ∧ (∀ (elsewhere : ShapeHandle → Option Shape) (d : ObjectDeclaration) (args : ObjectArguments)
        (s : Schema) (r : Registry),
      (∀ h p, elsewhere h = some p → p.FromReached) →
      c.objectArguments elsewhere d = .ok args →
      ((args.assembly c).objectSchema args.name args.specs args.additional args.options args.parent
        { owner := some args.name }).result = .ok (s, r) →
      r.Complete s.nodes s.innerNodes
        ∧ ∃ t, TypeExpr.ofObject r.close s args.options (some args.name)
            (args.parent.map Shape.inherited) = .ok t
          ∧ (c.defineObject elsewhere d).result = .ok (c.add (args.shape c t), args.shape c t))
    ∧ (c.Reachable → ∀ s ∈ c.definitions,
      s.signature.Each (TypeExpr.Labelled (· ∈ c.names))) := by
  refine ⟨fun d args s r hargs h => ?_, fun elsewhere d args s r helse hargs h => ?_,
    fun hreachable => hreachable.labelled⟩
  · exact ⟨TypeArguments.complete_of_assembled hc h,
      TypeArguments.defineType_of_assembled hc hargs h⟩
  · exact ⟨ObjectArguments.complete_of_assembled hc helse hargs h,
      ObjectArguments.defineObject_of_assembled hc helse hargs h⟩

/-! ### A catalog of trees -/

namespace Trees

/-- Keys are texts. -/
def keys : TypeDeclaration := { name := .str "Key", type := .descriptor (.scalar .string) }

/-- Paths are lists of keys. -/
def paths : TypeDeclaration := { name := .str "Path", type := .descriptor (.array (.named "Key")) }

/-- Trees embed their key and refer to further trees. -/
def trees : ObjectDeclaration where
  name := .str "Tree"
  properties :=
    [.spec ⟨"key", .named "Key", { inline := some true }⟩,
     .spec ⟨"children", .array (.named "Tree"), {}⟩]

/-- What the definition of keys says. -/
def keyArguments : TypeArguments := ⟨"Key", "Key", .scalar .string, {}⟩

/-- What the definition of paths says. -/
def pathArguments : TypeArguments := ⟨"Path", "Path", .array (.named "Key"), {}⟩

/-- What the definition of trees says. -/
def treeArguments : ObjectArguments where
  name := "Tree"
  title := "Tree"
  options := {}
  specs :=
    [⟨"key", .named "Key", { inline := some true }⟩, ⟨"children", .array (.named "Tree"), {}⟩]
  additional := none
  parent := none

/-- The shape of keys. -/
def key : Shape := keyArguments.shape {} (.primitive .string)

theorem defineType_keys :
    (({} : Catalog).defineType keys).result = .ok (({} : Catalog).add key, key) :=
  defineType_eq_ok_iff.2 ⟨keyArguments, _, rfl, rfl, TypeExpr.ofSchema_scalar rfl, rfl, rfl⟩

theorem after_keys : ({} : Catalog).after [.type keys] = ({} : Catalog).add key := by
  rw [after_cons, after_nil, step, define, defineType_keys]

/-- The shape of paths. -/
def path : Shape := pathArguments.shape (({} : Catalog).add key) (.sequence (.named "Key"))

theorem defineType_paths :
    ((({} : Catalog).add key).defineType paths).result
      = .ok ((({} : Catalog).add key).add path, path) :=
  defineType_eq_ok_iff.2 ⟨pathArguments, _, rfl, rfl, (TypeExpr.ofSchema_array_eq_ok_iff rfl).2
    ⟨_, _, rfl, TypeExpr.ofSchema_reference_eq_ok_iff.2 ⟨"Key", rfl, rfl⟩, rfl⟩, rfl, rfl⟩

theorem after_paths : ({} : Catalog).after [.type keys, .type paths]
    = (({} : Catalog).add key).add path := by
  have hkeys : ({} : Catalog).step (fun _ => none) (.type keys) = ({} : Catalog).add key := by
    rw [step, define, defineType_keys]
  rw [after_cons, after_cons, after_nil, hkeys, step, define, defineType_paths]

end Trees

/-- In the catalog of keys the definitions of paths and of trees go through. -/
theorem Reached.generation_trees :
    ∃ c : Catalog, c.Reached ∧ c.Reachable
      ∧ ((Trees.pathArguments.registry c).Complete (Trees.pathArguments.built c).nodes
          (Trees.pathArguments.built c).nodes
        ∧ ∃ shape, (c.defineType Trees.paths).result = .ok (c.add shape, shape))
      ∧ ((Trees.treeArguments.registry c).Complete (Trees.treeArguments.schema c).nodes
          (Trees.treeArguments.schema c).innerNodes
        ∧ ∃ shape, (c.defineObject (fun _ => none) Trees.trees).result = .ok (c.add shape, shape))
      ∧ Trees.key ∈ c.definitions
      ∧ ∀ s ∈ c.definitions, s.signature.Each (TypeExpr.Labelled (· ∈ c.names)) := by
  let c := ({} : Catalog).add Trees.key
  have hreachable : c.Reachable := ⟨"", _, Trees.after_keys.symm⟩
  obtain ⟨htype, hobject, hnames⟩ := Reached.generation hreachable.reached
  obtain ⟨hpath, t, -, ht⟩ := htype Trees.paths Trees.pathArguments
    (Trees.pathArguments.built c) (Trees.pathArguments.registry c) rfl rfl
  -- Trees refer to themselves, so this one has a reference that its own definition registers.
  obtain ⟨htree, u, -, hu⟩ := hobject (fun _ => none) Trees.trees Trees.treeArguments
    (Trees.treeArguments.schema c) (Trees.treeArguments.registry c) (by simp) rfl rfl
  exact ⟨c, hreachable.reached, hreachable, ⟨hpath, _, ht⟩, ⟨htree, _, hu⟩,
    self_mem_definitions_add nofun, hnames hreachable⟩

end Catalog

end DataShapes
