import DataShapes.Proofs.Catalog.Nodes

/-!
# Registries mean the shapes of their catalog

In a catalog that takes nothing from elsewhere a registry leads from the title in a path to the
declared name of a shape with that title, and from the title of an embedded shape to its declared
name.  So all names in a type signature are names of shapes.

Main definitions:
* `Catalog.Means`: a declared name belongs to a shape with a title;
* `Catalog.Explains`: each entry of a bundle of writes does so;
* `Catalog.MeansKey`: a declared name belongs to the shape that a key looks up.

Main statements:
* `Catalog.MeansKey.unique`: where titles are distinct, a key means one shape;
* `Catalog.Reachable.explains`: registries lead to shapes of their catalog;
* `Catalog.Reachable.labelled`: type signatures name shapes of their catalog.
-/

namespace DataShapes

/-- The path of a reference has one title. -/
theorem Schema.title_eq_of_path_eq {title title' : String}
    (h : definitionsPath ++ title = definitionsPath ++ title') : title = title' :=
  String.toList_inj.1 (by simpa using congrArg String.toList h)

namespace Catalog

/-- The declared name belongs to a shape with the title. -/
def Means (c : Catalog) (title unit : String) : Prop :=
  ∃ s ∈ c.definitions, s.title = title ∧ s.name = unit

/-- A reference is to a title, and the declared names belong to shapes with the titles. -/
structure Explains (c : Catalog) (w : Writes) : Prop where
  entries {e} : e ∈ w.entries → ∃ title, e.1 = Schema.definitionsPath ++ title ∧ c.Means title e.2
  inlined {e} : e ∈ w.inlined → c.Means e.1 e.2

variable {c c' : Catalog} {w x : Writes}

/-- What a title means in a catalog it means in every larger one. -/
theorem Means.mono {title unit : String} (h : c.Means title unit)
    (hsub : ∀ s ∈ c.definitions, s ∈ c'.definitions) : c'.Means title unit := by
  obtain ⟨s, hs, htitle, hname⟩ := h
  exact ⟨s, hsub s hs, htitle, hname⟩

/-- What explains writes in a catalog explains them in every larger one. -/
theorem Explains.mono (h : c.Explains w) (hsub : ∀ s ∈ c.definitions, s ∈ c'.definitions) :
    c'.Explains w where
  entries he := by
    obtain ⟨title, hpath, hmeans⟩ := h.entries he
    exact ⟨title, hpath, hmeans.mono hsub⟩
  inlined he := (h.inlined he).mono hsub

theorem explains_empty : c.Explains {} := ⟨nofun, nofun⟩

/-- Writes that are explained on their own are explained together. -/
theorem Explains.append (hw : c.Explains w) (hx : c.Explains x) : c.Explains (w ++ x) where
  entries he := (List.mem_append.1 he).elim hw.entries hx.entries
  inlined he := (List.mem_append.1 he).elim hw.inlined hx.inlined

/-- A registry holds nothing but what was written to it. -/
theorem Explains.registry (h : c.Explains w) (owner : Option String) :
    c.Explains (({ owner := owner } : Registry).write w).close.content where
  entries he := (Table.mem_putAll he).elim nofun h.entries
  inlined he := (Table.mem_putAll he).elim nofun h.inlined

/-- The declared name belongs to the shape that is looked up by the key. -/
def MeansKey (c : Catalog) : LookupKey → String → Prop
  | .path path, unit => ∃ title, path = Schema.definitionsPath ++ title ∧ c.Means title unit
  | .title title, unit => c.Means title unit

/-- What is found in writes that mean what they should is what the key means. -/
theorem Explains.meansKey_find? (h : c.Explains w) {k : LookupKey} {unit : String}
    (hunit : w.find? k = some unit) : c.MeansKey k unit := by
  cases k with
  | path path => exact h.entries (Table.mem_of_lastOf hunit)
  | title title => exact h.inlined (Table.mem_of_lastOf hunit)

/-- What is found in a registry is what the key means. -/
theorem Explains.meansKey_of_registry {r : Registry} (h : c.Explains r.content) {k : LookupKey}
    {unit : String} (hunit : r.find? k = some unit) : c.MeansKey k unit := by
  cases k with
  | path path => exact h.entries (Table.mem_of_get? hunit)
  | title title => exact h.inlined (Table.mem_of_get? hunit)

/-- Shapes with distinct titles are not confused: a title has one declared name. -/
theorem Means.unique (htitles : (c.definitions.map Shape.title).Nodup) {title u v : String}
    (hu : c.Means title u) (hv : c.Means title v) : u = v := by
  obtain ⟨s, hs, hstitle, rfl⟩ := hu
  obtain ⟨t, ht, httitle, rfl⟩ := hv
  rw [List.inj_on_of_nodup_map htitles hs ht (hstitle.trans httitle.symm)]

/-- A key means one thing when no two shapes share a title. -/
theorem MeansKey.unique (htitles : (c.definitions.map Shape.title).Nodup) {k : LookupKey}
    {u v : String} (hu : c.MeansKey k u) (hv : c.MeansKey k v) : u = v := by
  cases k with
  | path path =>
    obtain ⟨title, hpath, hmeans⟩ := hu
    obtain ⟨title', hpath', hmeans'⟩ := hv
    have htitle : title = title' := Schema.title_eq_of_path_eq (hpath.symm.trans hpath')
    exact hmeans.unique htitles (htitle ▸ hmeans')
  | title title => exact Means.unique htitles hu hv

/-- The names that a registry gives are names of the catalog. -/
theorem Explains.namesWithin {r : Registry} (hnamed : c.WellNamed) (h : c.Explains r.content) :
    TypeExpr.NamesWithin (· ∈ c.names) r := by
  have hmem : ∀ {title unit}, c.Means title unit → unit ∈ c.names := by
    rintro title unit ⟨s, hs, -, rfl⟩
    rw [hnamed.names_eq]
    exact List.mem_map_of_mem hs
  constructor
  · intro path unit hunit
    obtain ⟨title, -, hmeans⟩ := h.entries (Table.mem_of_get? hunit)
    exact hmem hmeans
  · intro title unit hunit
    exact hmem (h.inlined (Table.mem_of_get? hunit))

end Catalog

/-! ### Writes -/

namespace Assembly

variable {a : Assembly} {c : Catalog}

/-- What a name writes means what it should when the registries of finished shapes do. -/
theorem explains_writesOfName {name : String}
    (hself : a.shape? name = none → c.Means a.title a.name)
    (hshape : ∀ name t, a.shape? name = some t →
      c.Means t.title t.name ∧ c.Explains t.registry.content) (o : PropertyOptions) :
    c.Explains (a.writesOfName name o) := by
  unfold writesOfName
  -- A name without a shape is that of the shape under definition: its title is written.
  cases ht : a.shape? name with
  | none =>
    refine ⟨fun he => ?_, nofun⟩
    rw [List.mem_singleton.1 he]
    exact ⟨a.title, rfl, hself ht⟩
  | some t =>
    obtain ⟨hmeans, hregistry⟩ := hshape name t ht
    dsimp only
    split
    · -- Inlined: the title and all that the shape knows.
      refine .append ⟨nofun, fun he => ?_⟩ hregistry
      rw [List.mem_singleton.1 he]
      exact hmeans
    · -- Referred to: the path alone.
      refine ⟨fun he => ?_, nofun⟩
      rw [List.mem_singleton.1 he]
      exact ⟨t.title, rfl, hmeans⟩

/-- The writes for a descriptor are explained when its names are those of shapes that are. -/
theorem explains_writes {d : Descriptor}
    (hself : ∀ name ∈ d.names, a.shape? name = none → c.Means a.title a.name)
    (hshape : ∀ name t, a.shape? name = some t →
      c.Means t.title t.name ∧ c.Explains t.registry.content) (o : PropertyOptions) :
    c.Explains (a.writes d o) := by
  induction d using Descriptor.induction_parts generalizing o with
  | scalar kind => exact Catalog.explains_empty
  | array item ih => exact ih hself o.forPart
  | map value ih => exact ih hself o.forPart
  | union members ih =>
    rw [writes]
    generalize o.forPart = o
    -- The writes of the members are joined along the list, so the claim is about every end of it.
    have hall : ∀ ds : List Descriptor, (∀ m ∈ ds, m ∈ members) →
        c.Explains (a.writesOfAll ds o) := by
      intro ds hds
      induction ds with
      | nil => exact Catalog.explains_empty
      | cons d ds ihds =>
        have hd : d ∈ members := hds d List.mem_cons_self
        refine .append (ih d hd (fun name hname => ?_) o)
          (ihds fun m hm => hds m (List.mem_cons_of_mem _ hm))
        exact hself name (Descriptor.mem_names_union.2 ⟨d, hd, hname⟩)
    exact hall members fun _ hm => hm
  | named name => exact explains_writesOfName (hself name (by simp [Descriptor.names])) hshape o
  | raw v => exact Catalog.explains_empty

/-- So are the writes for an object, those of the extended shape included. -/
theorem explains_objectWrites (hself : c.Means a.title a.name)
    (hshape : ∀ name t, a.shape? name = some t →
      c.Means t.title t.name ∧ c.Explains t.registry.content) {parent : Option Shape}
    (hparent : ∀ p, parent = some p → c.Explains p.registry.content) (own : List PropertySpec)
    (additional : Option (Descriptor × PropertyOptions)) :
    c.Explains (a.objectWrites own additional parent) := by
  -- Own properties, additional ones, and what the extended shape knows.
  refine .append (.append ?_ ?_) ?_
  · induction own with
    | nil => exact Catalog.explains_empty
    | cons s own ih => exact .append (explains_writes (fun _ _ _ => hself) hshape s.options) ih
  · cases additional with
    | none => exact Catalog.explains_empty
    | some e => exact explains_writes (fun _ _ _ => hself) hshape e.2
  · cases hp : parent with
    | none => exact Catalog.explains_empty
    | some p => exact hparent p hp

end Assembly

/-! ### All shapes -/

namespace Catalog

/-- What is in a catalog is in it after another shape was added. -/
theorem mem_definitions_add {c : Catalog} {s t : Shape} (hs : s.name ∉ c.names)
    (ht : t ∈ c.definitions) : t ∈ (c.add s).definitions := by
  rw [definitions_add hs]
  exact List.mem_append_left _ ht

/-- An added shape is in the catalog. -/
theorem self_mem_definitions_add {c : Catalog} {s : Shape} (hs : s.name ∉ c.names) :
    s ∈ (c.add s).definitions := by
  rw [definitions_add hs]
  exact List.mem_append_right _ (List.mem_singleton_self s)

/-- The writes of a definition mean what they should in the catalog with the finished shape. -/
theorem explains_finished {c : Catalog} {s : Shape}
    (hc : ∀ t ∈ c.definitions, c.Explains t.registry.content) (hs : c.FinishesWithin s) :
    (c.add s).Explains s.registry.content := by
  have hsub : ∀ t ∈ c.definitions, t ∈ (c.add s).definitions :=
    fun t ht => mem_definitions_add hs.name_not_mem ht
  -- A definition may refer to the shape that it is about to finish.
  have hself : (c.add s).Means s.title s.name :=
    ⟨s, self_mem_definitions_add hs.name_not_mem, rfl, rfl⟩
  have hshape : ∀ a : Assembly, a.catalog = some c → ∀ name t, a.shape? name = some t →
      (c.add s).Means t.title t.name ∧ (c.add s).Explains t.registry.content := by
    intro a ha name t ht
    have hmem := Assembly.mem_of_shape? ha ht
    exact ⟨⟨t, hsub t hmem, rfl, rfl⟩, (hc t hmem).mono hsub⟩
  cases hs with
  | type args t _ _ _ _ =>
    exact (Assembly.explains_writes (a := args.assembly c) (fun _ _ _ => hself) (hshape _ rfl)
      _).registry _
  | object args t _ _ hparent _ _ =>
    exact (Assembly.explains_objectWrites (a := args.assembly c) hself (hshape _ rfl)
      (fun p hp => (hc p (hparent p hp).1).mono hsub) _ _).registry _

/-- Registries lead to shapes of their catalog. -/
theorem Reachable.explains {c : Catalog} (h : c.Reachable) :
    ∀ s ∈ c.definitions, c.Explains s.registry.content := by
  refine h.forall_shape (P := fun c s => c.Explains s.registry.content) ?_ ?_
  · intro c s t _ ht hs
    exact hs.mono fun u hu => mem_definitions_add ht.name_not_mem hu
  · intro c s _ hc hs
    exact explains_finished hc hs

/-- The signature of a finished shape names shapes of the catalog with the shape. -/
theorem labelled_finished {c : Catalog} {s : Shape} (hcatalog : c.Reachable)
    (hc : ∀ t ∈ c.definitions, t.signature.Each (TypeExpr.Labelled (· ∈ c.names)))
    (hs : c.FinishesWithin s) : s.signature.Each (TypeExpr.Labelled (· ∈ (c.add s).names)) := by
  have hnew := hs.name_not_mem
  have hnamed : (c.add s).WellNamed := hcatalog.reached.wellNamed.add hnew
  have hwithin := (explains_finished hcatalog.explains hs).namesWithin hnamed
  have hcovered := hcatalog.reached.covered
  have hself : s.name ∈ (c.add s).names := by simp [names_add hnew]
  have hsub : ∀ name ∈ c.names, name ∈ (c.add s).names := by
    intro name hname
    rw [names_add hnew]
    exact List.mem_append_left _ hname
  -- Only types that are read off this schema are new, and its registry explains their references.
  refine hs.each_signature (fun p hp => (hc p hp).mono fun _ he => he.mono hsub)
    (fun htype u hu => ?_) (fun hobject n hn u hu => ?_) (fun _ _ _ => ⟨s.name, rfl, hself⟩)
    (fun _ _ _ => trivial) trivial
  · cases hs with
    | object => cases htype
    | type args t _ _ haccepted _ =>
      have hbuilt := TypeArguments.each_built hcovered haccepted
        (Registry.holds_write { owner := some args.name } _).close
      exact TypeExpr.ofNormalForm_labelled hwithin (TypeArguments.each_schema hbuilt) hu
  · cases hs with
    | type => cases hobject
    | object args t _ _ hparent haccepted _ =>
      have hchild := ObjectArguments.each_child hcovered
        (fun p hp => hcovered p (hparent p hp).1) haccepted
        (Registry.holds_write { owner := some args.name } _).close
      exact TypeExpr.ofNormalForm_labelled hwithin ((hchild n hn).mono fun _ hn => hn.1) hu

/-- Type signatures name shapes of their catalog. -/
theorem Reachable.labelled {c : Catalog} (h : c.Reachable) :
    ∀ s ∈ c.definitions, s.signature.Each (TypeExpr.Labelled (· ∈ c.names)) := by
  refine h.forall_shape (P := fun c s => s.signature.Each (TypeExpr.Labelled (· ∈ c.names))) ?_ ?_
  · intro c s t _ ht hs
    refine hs.mono fun _ he => he.mono fun name hname => ?_
    rw [names_add ht.name_not_mem]
    exact List.mem_append_left _ hname
  · intro c s hcatalog hc hs
    exact labelled_finished hcatalog hc hs

end Catalog

end DataShapes
