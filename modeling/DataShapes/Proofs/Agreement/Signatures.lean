import DataShapes.Proofs.Agreement.Normal
import DataShapes.Proofs.Catalog.Meaning
import DataShapes.Proofs.TypeExpr.Consults

/-!
# Type signatures have the values that schemas admit

Reading a type signature off a schema replaces titles by declared names.  When no two shapes share a
title, and the registry leads from titles to shapes of the catalog, nothing is lost: the values of
the type expression are the values that the schema admits.

Main definitions:
* `Catalog.Distinct`: no two shapes share a name or a title.

Main statements:
* `TypeExpr.inhabits_ofNormalForm_iff`: the values of the signature of a schema;
* `TypeExpr.inhabits_ofObject_iff`: the values of the signature of an object shape.
-/

namespace DataShapes

namespace Catalog

/-- No two shapes of the catalog share a name or a title. -/
structure Distinct (c : Catalog) : Prop where
  name {s t} : s ∈ c.definitions → t ∈ c.definitions → s.name = t.name → s = t
  title {s t} : s ∈ c.definitions → t ∈ c.definitions → s.title = t.title → s = t

/-- Shapes with distinct titles are told apart by their names and by their titles. -/
theorem WellNamed.distinct {c : Catalog} (h : c.WellNamed)
    (htitles : (c.definitions.map Shape.title).Nodup) : c.Distinct where
  name hs ht heq := by
    have hnames : (c.definitions.map Shape.name).Nodup := h.names_eq ▸ h.nodup
    exact List.inj_on_of_nodup_map hnames hs ht heq
  title hs ht heq := List.inj_on_of_nodup_map htitles hs ht heq

variable {c : Catalog} {v : Value}

/-- The values of a name are the values of the signature of its shape. -/
theorem Distinct.inhabits_named_iff (h : c.Distinct) {s : Shape} (hs : s ∈ c.definitions) :
    Inhabits c v (.named s.name) ↔ Inhabits c v s.signature := by
  rw [DataShapes.inhabits_named_iff]
  constructor
  · rintro ⟨t, ht, hname, hv⟩
    rwa [← h.name ht hs hname]
  · intro hv
    exact ⟨s, hs, rfl, hv⟩

/-- A reference to the title of a shape admits the values of its name. -/
theorem Distinct.admits_toTitle_iff (h : c.Distinct) {s : Shape} (hs : s ∈ c.definitions) :
    (Schema.toTitle s.title).Admits c v ↔ Inhabits c v (.named s.name) := by
  rw [Schema.toTitle, Schema.admits_reference_iff]
  constructor
  · rintro ⟨t, ht, hpath, hv⟩
    rwa [h.title hs ht (Schema.title_eq_of_path_eq hpath)]
  · intro hv
    exact ⟨s, hs, rfl, hv⟩

/-- The schema of an object with the title of a shape admits objects of that shape. -/
theorem Distinct.admits_object_iff (h : c.Distinct) {s : Shape} (hs : s ∈ c.definitions)
    {f : Facets} {ps : Option (List (String × Schema))} {i a : Option Schema}
    {ms : Option (List Schema)}
    (hk : f.kind = .object) (hmap : ¬ Schema.IsMapNode f ps a) (htitle : f.title = some s.title) :
    (Schema.node f ps i a ms).Admits c v ↔
      (f.nullable = true ∧ v = .null)
        ∨ v.IsObjectOf s (FitsEntry Prod.fst (ps.getD []) a (fun p x => p.2.Admits c x)
          (Schema.Admits c)) := by
  rw [Schema.admits_object_iff hk hmap]
  refine or_congr_right ?_
  constructor
  · -- Two shapes with one title are the same.
    rintro ⟨s', hs', htitle', hv⟩
    rw [htitle] at htitle'
    rwa [h.title hs hs' (Option.some.inj htitle')]
  · intro hv
    exact ⟨s, hs, htitle, hv⟩

end Catalog

namespace TypeExpr

variable {c : Catalog} {r : Registry} {t : TypeExpr} {v : Value}

/-- What the values of the fields of a record and of the properties of an object have in common is
    enough for the record and the object. -/
theorem inhabits_record_iff_of_isObject {s : Shape} (hc : c.Distinct) (hs : s ∈ c.definitions)
    {fields : List FieldType} {representation : Representation} {extra : Option TypeExpr}
    {entry : String → Value → Prop}
    (h : ∀ k x, FitsEntry FieldType.name fields extra (fun field x => Inhabits c x field.type)
      (fun type x => Inhabits c x type) k x ↔ entry k x) :
    Inhabits c v (.record (some s.name) fields representation extra) ↔ v.IsObjectOf s entry := by
  rw [inhabits_record_iff]
  constructor
  · -- The record has the name of the shape, and no other shape has it.
    rintro ⟨s', hs', hname, hv⟩
    rw [← hc.name hs hs' (Option.some.inj hname)] at hv
    exact (Value.IsObjectOf.congr h).1 hv
  · intro hv
    exact ⟨s, hs, rfl, (Value.IsObjectOf.congr h).2 hv⟩

/-- Fields and properties ask the same of an entry when their values are the same one by one, and
    those under other keys are. -/
theorem fitsEntry_fields_iff {fields : List FieldType} {ps : Table Schema} {extra : Option TypeExpr}
    {a : Option Schema}
    (hfields : List.Forall₂ (fun p field => p.1 = field.name
      ∧ ∀ x, Inhabits c x field.type ↔ p.2.Admits c x) ps fields)
    (hextra : (a = Option.none ∧ extra = Option.none)
      ∨ ∃ value u, a = some value ∧ extra = some u ∧ ∀ x, Inhabits c x u ↔ value.Admits c x)
    (k : String) (x : Value) :
    FitsEntry FieldType.name fields extra (fun field x => Inhabits c x field.type)
        (fun type x => Inhabits c x type) k x
      ↔ FitsEntry Prod.fst ps a (fun p x => p.2.Admits c x) (Schema.Admits c) k x := by
  refine (FitsEntry.congr (hfields.imp fun p field h => ⟨h.1, (h.2 x).symm⟩) ?_).symm
  -- Either both take values under other keys or neither does.
  rcases hextra with ⟨rfl, rfl⟩ | ⟨value, u, rfl, rfl, hvalue⟩
  · simp
  · simp [hvalue x]

/-- What is read for other keys has the values that the schema of other values admits. -/
theorem extraOf_admits {f : Facets} {ps : Option (List (String × Schema))} {i a : Option Schema}
    {ms : Option (List Schema)} {extra : Option TypeExpr}
    (h : ∀ value u, a = some value → ofNormalForm r value = .ok u →
      ∀ x, Inhabits c x u ↔ value.Admits c x)
    (hextra : extraOf r (.node f ps i a ms) = .ok extra) :
    (a = Option.none ∧ extra = Option.none)
      ∨ ∃ value u, a = some value ∧ extra = some u ∧ ∀ x, Inhabits c x u ↔ value.Admits c x := by
  rcases extraOf_eq_ok_iff.1 hextra with ⟨hnone, rfl⟩ | ⟨value, u, hvalue, hu, rfl⟩
  · exact .inl ⟨hnone, rfl⟩
  · exact .inr ⟨value, u, hvalue, rfl, h value u hvalue hu⟩

/-- The type expression of a schema without flags for null has the values that the schema admits. -/
theorem inhabits_ofSchema_iff (hc : c.Distinct) (hr : c.Explains r.content) {s : Schema}
    (hnull : s.NullSplit) (hcovers : s.Each r.Covers) (hkeys : s.Each Schema.DistinctKeys)
    (ht : ofSchema r s = .ok t) : Inhabits c v t ↔ s.Admits c v := by
  induction s using Schema.induction_read generalizing t v with
  | h s ih =>
    have hnext : ∀ m ∈ s.readNext, ∀ u x, ofSchema r m = .ok u → (Inhabits c x u ↔ m.Admits c x) :=
      fun m hm u x hu => ih m hm (hnull.next hm) (each_readNext r.normalStable_covers hcovers m hm)
        (each_readNext Schema.normalStable_distinctKeys hkeys m hm) hu
    cases s with
    | reference path =>
      obtain ⟨unit, hunit, rfl⟩ := ofSchema_reference_eq_ok_iff.1 ht
      obtain ⟨title, hpath, s, hs, rfl, rfl⟩ := hr.entries (Table.mem_of_get? hunit)
      have hpath : path = Schema.definitionsPath ++ s.title := hpath
      rw [hpath]
      exact (hc.admits_toTitle_iff hs).symm
    | node f ps i a ms =>
      have hflag : f.kind = .null ∨ f.nullable = false := by
        simpa [Schema.isAbsent, Schema.nullable, Schema.kind?, Schema.facets?] using hnull.flag
      -- What admits null has a member for it instead of a flag, save "no value" itself.
      have hbare : f.kind ≠ .null → ∀ p : Prop, (f.nullable = true ∧ v = .null) ∨ p ↔ p := by
        intro hk p
        simp [hflag.resolve_left hk]
      rcases f.kind.cases_read with ⟨k, hk⟩ | hk | hk | hk | hk
      · rw [ofSchema_scalar hk] at ht
        cases ht
        have hne : f.kind ≠ .null := fun hn => by rw [hn] at hk; cases hk
        rw [inhabits_primitive_iff, Schema.admits_scalar_iff hk, hbare hne]
      · rw [ofSchema_null hk] at ht
        cases ht
        rw [inhabits_none_iff, Schema.admits_null_iff hk]
      · obtain ⟨item, u, rfl, hu, rfl⟩ := (ofSchema_array_eq_ok_iff hk).1 ht
        have hitem : v.IsArrayOf (fun x => Inhabits c x u) ↔ v.IsArrayOf (item.Admits c) :=
          Value.IsArrayOf.congr fun x => hnext item (by simp [Schema.readNext, hk]) u x hu
        rw [inhabits_sequence_iff, Schema.admits_array_iff hk, hbare (by simp [hk]), hitem]
        simp
      · obtain ⟨ts, hts, rfl⟩ := (ofSchema_union_eq_ok_iff hk).1 ht
        have hmembers : (∃ m ∈ ms.getD [], m.Admits c v) ↔ ∃ u ∈ ts, Inhabits c v u :=
          exists_mem_of_forall₂ hts fun m hm u _ hu =>
            (hnext m (by simpa [Schema.readNext, hk] using hm) u v hu).symm
        rw [inhabits_unionOf_iff, Schema.admits_union_iff hk, hbare (by simp [hk]), hmembers]
      · obtain ⟨fields, extra, hfields, hextra, rfl⟩ := (ofSchema_object_eq_ok_iff hk).1 ht
        have hne : f.kind ≠ .null := by simp [hk]
        -- The contents are read off their normal forms, which admit what the contents admit.
        have hcontent : ∀ m ∈ (ps.getD []).map Prod.snd ++ a.toList, ∀ u x,
            ofNormalForm r m = .ok u → (Inhabits c x u ↔ m.Admits c x) := by
          intro m hm u x hu
          have hread : m.normalize ∈ (Schema.node f ps i a ms).readNext := by
            simp only [Schema.readNext, hk]
            exact List.mem_map_of_mem hm
          have hchild : m ∈ (Schema.node f ps i a ms).children := by
            simp only [Schema.children, List.mem_append] at hm ⊢
            tauto
          rw [hnext m.normalize hread u x hu, Schema.admits_normalize_iff (hkeys.child hchild)]
        have hother := extraOf_admits (c := c) (fun value u hvalue hu x =>
          hcontent value (List.mem_append_right _ (Option.mem_toList.2 hvalue)) u x hu) hextra
        rcases ofObjectParts_cases hfields hextra with
          ⟨hmap, -, type, htype, heq⟩ | ⟨hmap, heq⟩
        · rcases hother with ⟨-, hno⟩ | ⟨value, u, rfl, hu, hvalue⟩
          · rw [hno] at htype
            cases htype
          · rw [hu] at htype
            cases htype
            rw [heq, inhabits_mapping_iff, Schema.admits_map_iff hk hmap, hbare hne,
              Value.IsMapOf.congr hvalue]
            simp
        · have hrows : List.Forall₂ (fun p field => p.1 = field.name
              ∧ ∀ x, Inhabits c x field.type ↔ p.2.Admits c x) (ps.getD []) fields := by
            have hall : ∀ p ∈ ps.getD [], ∀ u x, ofNormalForm r p.2 = .ok u →
                (Inhabits c x u ↔ p.2.Admits c x) := fun p hp =>
              hcontent p.2 (List.mem_append_left _ (List.mem_map_of_mem hp))
            refine ((List.forall₂_and_left _ _).2 ⟨hall, hfields⟩).imp ?_
            rintro p field ⟨hp, u, hu, rfl⟩
            exact ⟨rfl, fun x => hp u x hu⟩
          -- The registry has the title of the object, and the name it gives is that of the shape.
          obtain ⟨title, htitle, hsome⟩ := (hcovers.self.2 hk).resolve_left hmap
          obtain ⟨unit, hunit⟩ := Option.isSome_iff_exists.1 hsome
          obtain ⟨s, hs, rfl, rfl⟩ := hr.inlined (Table.mem_of_get? hunit)
          have hlabel : f.title.map r.inlinedName = some s.name := by
            rw [htitle]
            simp [Registry.inlinedName, hunit]
          rw [heq, hlabel,
            inhabits_record_iff_of_isObject hc hs (fitsEntry_fields_iff hrows hother),
            hc.admits_object_iff hs hk hmap htitle, hbare hne]

/-- The signature of a schema has the values that the schema admits. -/
theorem inhabits_ofNormalForm_iff (hc : c.Distinct) (hr : c.Explains r.content) {s : Schema}
    (hcovers : s.Each r.Covers) (hkeys : s.Each Schema.DistinctKeys)
    (ht : ofNormalForm r s = .ok t) : Inhabits c v t ↔ s.Admits c v := by
  have hnormal : Inhabits c v t ↔ s.normalize.Admits c v :=
    inhabits_ofSchema_iff hc hr (Schema.nullSplit_normalize s)
      (hcovers.normalize r.normalStable_covers)
      (hkeys.normalize Schema.normalStable_distinctKeys) ht
  rw [hnormal, Schema.admits_normalize_iff hkeys]

/-! ### Object shapes -/

section Objects

variable {f : Facets} {ps : Option (List (String × Schema))} {i a : Option Schema}
  {ms : Option (List Schema)} {options : ObjectOptions} {parent : Option Inherited}

/-- The signature of an object shape has the values that the schema of the object admits, when the
    types of its fields have the values that the schemas of its properties admit. -/
theorem inhabits_ofObject_iff (hc : c.Distinct) {s : Shape} (hs : s ∈ c.definitions)
    (hname : s.name ≠ "") (hk : f.kind = .object) (hmap : ¬ Schema.IsMapNode f ps a)
    (htitle : f.title = some s.title)
    (hfield : ∀ p ∈ ps.getD [], ∀ u, fieldType r parent p = .ok u →
      ∀ x, Inhabits c x u ↔ p.2.Admits c x)
    (hextra : ∀ value u, a = some value → ofNormalForm r value = .ok u →
      ∀ x, Inhabits c x u ↔ value.Admits c x)
    (ht : ofObject r (.node f ps i a ms) options (some s.name) parent = .ok t) :
    Inhabits c v t ↔ (Schema.node f ps i a ms).Admits c v := by
  obtain ⟨fields, extra, hfields, hread, rfl⟩ := (ofObject_eq_ok_iff hname).1 ht
  have hproperties : (Schema.node f ps i a ms).properties = ps.getD [] := by
    cases ps <;> rfl
  have hrows : List.Forall₂ (fun p field => p.1 = field.name
      ∧ ∀ x, Inhabits c x field.type ↔ p.2.Admits c x) (ps.getD []) fields := by
    rw [fieldsOf_eq_ok_iff, hproperties] at hfields
    refine ((List.forall₂_and_left _ _).2 ⟨hfield, hfields⟩).imp ?_
    rintro p field ⟨hp, u, hu, rfl⟩
    exact ⟨rfl, hp u hu⟩
  have hother := extraOf_admits hextra hread
  have hrecord : ∀ representation, Inhabits c v (.record (some s.name) fields representation extra)
      ↔ v.IsObjectOf s (FitsEntry Prod.fst (ps.getD []) a (fun p x => p.2.Admits c x)
        (Schema.Admits c)) := fun representation =>
    inhabits_record_iff_of_isObject hc hs (fitsEntry_fields_iff hrows hother)
  -- The flag of an object becomes a union with null, in which null stands behind the record.
  have hflag : (Schema.node f ps i a ms).nullable = f.nullable := rfl
  rw [hc.admits_object_iff hs hk hmap htitle, hflag]
  cases f.nullable with
  | false => simp [hrecord]
  | true =>
    simp only [if_true, inhabits_union_iff, List.mem_cons, List.not_mem_nil, or_false,
      exists_eq_or_imp, exists_eq_left, hrecord, inhabits_none_iff, true_and]
    exact or_comm

/-- The type of a field of an object shape has the values that the schema of its property admits. -/
theorem inhabits_field_iff {name label : String} {s : Schema} (hname : label ≠ "")
    (hfield : ∀ p ∈ s.properties, ∀ u, fieldType r parent p = .ok u →
      ∀ x, Inhabits c x u ↔ p.2.Admits c x)
    (ht : ofObject r s options (some label) parent = .ok t) {record : RecordType}
    {field : FieldType} {node : Schema} (hrecord : t.record? = some record)
    (hfound : record.field? name = some field)
    (hnode : s.properties.get? name = some node) (x : Value) :
    Inhabits c x field.type ↔ node.Admits c x := by
  obtain ⟨fields, extra, hfields, -, rfl⟩ := (ofObject_eq_ok_iff hname).1 ht
  -- The record is the signature itself or the first member of a union with null.
  have hsame : record.fields = fields := by
    split at hrecord
    · cases hrecord
      rfl
    · cases hrecord
      rfl
  rw [RecordType.field?, hsame] at hfound
  -- Fields and properties have the same names, so both look-ups find the same place.
  rcases find?_of_fieldsOf hfields name with ⟨hnone, -⟩ | ⟨node', u, hsome, hu, hfind⟩
  · rw [hnode] at hnone
    cases hnone
  · rw [hnode] at hsome
    cases hsome
    rw [hfound] at hfind
    cases hfind
    exact hfield (name, node) (Table.mem_of_get? hnode) u hu x

end Objects

end TypeExpr

end DataShapes
