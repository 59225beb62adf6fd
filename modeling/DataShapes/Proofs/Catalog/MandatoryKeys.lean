import DataShapes.Proofs.Catalog.Endings
import DataShapes.Proofs.Catalog.Views
import DataShapes.Proofs.TypeExpr.Hints

/-!
# Mandatory keys of fixed records

Which keys of a fixed record are mandatory is said three times: by the shape, in the list of the keys
that it enforces; by its stub, whose fields have a default or have none; and by the check of values,
which misses a key only if it is required.  The three agree because the check of the declarations of a
fixed record goes over all properties, the inherited ones included: what is neither nullable nor has a
default is required.

Main definitions:
* `Shape.AdmitsAlone`: an entry of a dictionary is admitted by itself.

Main statements:
* `Shape.Aligned.names_without_default`: the fields of a stub without a default;
* `Shape.settles_admits_of_alone`: among entries that are admitted, only missing keys matter;
* `Catalog.Reached.mandatory_keys_agree`: the three notions agree.
-/

namespace DataShapes

/-! ### Stubs -/

namespace StubField

/-- There is no default exactly when a value is needed. -/
theorem isNone_defaultOf (o : PropertyOptions) :
    (defaultOf o).isNone = (!o.nullable && !o.hasDefault) := by
  unfold defaultOf PropertyOptions.hasDefault
  cases o.default with
  | some v => simp
  | none => cases o.nullable <;> rfl

/-- Whether a field has a default is told by its name alone. -/
theorem map_isNone_default {specs : List PropertySpec} {fs : List FieldType}
    {fields : List StubField}
    (h : List.Forall₂ (fun f field => ofField specs f = .ok field) fs fields) :
    fields.map (fun field => (field.name, field.default.isNone))
      = (fs.map FieldType.name).map fun name => (name, (defaultOf (optionsOf specs name)).isNone) := by
  induction h with
  | nil => rfl
  | @cons f field fs fields hfield _ ih =>
    unfold ofField at hfield
    obtain ⟨text, -, hfield⟩ := Outcome.do_eq_ok_iff.1 hfield
    obtain rfl := Except.ok.inj hfield
    rw [List.map_cons, ih]
    rfl

end StubField

namespace StubShape

variable {s : Shape} {record : RecordType}

/-- The stub of a record with the given fields. -/
def withFields (s : Shape) (record : RecordType) (fields : List StubField) (extra : Option String) :
    StubShape where
  name := s.name
  kind := if record.representation == .fixedRecord && fields.all (isAttributeName ·.name)
    then .dataclass else .typedDict
  description := s.schema.description
  fields := fields
  extra := extra
  functional := !fields.all (isAttributeName ·.name)

/-- A stub is made of the record when the stubs of all its fields and of other keys are made. -/
theorem result_ofRecord {fields : List StubField} {extra : Option String}
    (hfields : record.fields.mapM (StubField.ofField s.specs) = .ok fields)
    (hextra : extraHint record.extra = .ok extra) :
    (ofRecord s record).result = .ok (withFields s record fields extra) := by
  unfold ofRecord withFields
  simp only [Noted.result_bind, Noted.result_liftM, hfields, hextra, Except.bind]
  split <;> simp [Except.bind]

/-- When the types in a record have hints, its stub has a field for each field of the record. -/
theorem exists_ofRecord (hfields : ∀ f ∈ record.fields, f.type.Each TypeExpr.Proper)
    (hextra : ∀ e, record.extra = some e → e.Each TypeExpr.Proper) :
    ∃ fields extra, (ofRecord s record).result = .ok (withFields s record fields extra)
      ∧ List.Forall₂ (fun f field => StubField.ofField s.specs f = .ok field) record.fields fields := by
  have hfield : ∀ f ∈ record.fields, ∃ field, StubField.ofField s.specs f = .ok field := by
    intro f hf
    obtain ⟨text, htext⟩ := TypeExpr.exists_hint (hfields f hf)
    exact ⟨_, by rw [StubField.ofField, htext]; rfl⟩
  obtain ⟨fields, hall⟩ := Outcome.exists_forall₂ hfield
  obtain ⟨extra, hextra⟩ : ∃ extra, extraHint record.extra = .ok extra := by
    cases he : record.extra with
    | none => exact ⟨_, rfl⟩
    | some e =>
      obtain ⟨text, htext⟩ := TypeExpr.exists_hint (hextra e he)
      exact ⟨_, by rw [extraHint, htext]; rfl⟩
  exact ⟨fields, extra, result_ofRecord (Outcome.mapM_eq_ok_iff.2 hall) hextra, hall⟩

/-- When each shape of a list has a stub, there are stubs for all of them, in order. -/
theorem exists_ofShapes {P : Shape → StubShape → Prop} {shapes : List Shape}
    (h : ∀ s ∈ shapes, ∃ stub, (ofShape s).result = .ok stub ∧ P s stub) :
    ∃ stubs, (ofShapes shapes).result = .ok stubs ∧ List.Forall₂ P shapes stubs := by
  induction shapes with
  | nil => exact ⟨[], rfl, .nil⟩
  | cons s shapes ih =>
    obtain ⟨stub, hstub, hs⟩ := h s List.mem_cons_self
    obtain ⟨stubs, hstubs, hshapes⟩ := ih fun t ht => h t (List.mem_cons_of_mem _ ht)
    exact ⟨stub :: stubs, by simp [ofShapes, hstub, hstubs, Except.bind], .cons hs hshapes⟩

end StubShape

/-- The fields of a stub without a default are the keys for which a value must be supplied. -/
theorem Shape.Aligned.names_without_default {s : Shape} {record : RecordType} (h : s.Aligned record)
    {fields : List StubField}
    (hfields : List.Forall₂ (fun f field => StubField.ofField s.specs f = .ok field) record.fields
      fields) :
    (fields.filter (·.default.isNone)).map StubField.name = s.enforcedKeys := by
  -- A field has a default in the stub exactly when a value need not be supplied.
  have hrow : fields.map (fun field => (field.name, field.default.isNone))
      = s.specs.map fun spec => (spec.name, spec.needsValue) :=
    calc fields.map (fun field => (field.name, field.default.isNone))
        = (record.fields.map FieldType.name).map fun name =>
            (name, (StubField.defaultOf (StubField.optionsOf s.specs name)).isNone) :=
          StubField.map_isNone_default hfields
      _ = s.specs.map fun spec => (spec.name,
            (StubField.defaultOf (StubField.optionsOf s.specs spec.name)).isNone) := by
          rw [h.fields, List.map_map]
          rfl
      _ = s.specs.map fun spec => (spec.name, spec.needsValue) := by
          refine List.map_congr_left fun spec hspec => ?_
          rw [StubField.optionsOf_of_mem h.names hspec, StubField.isNone_defaultOf]
          rfl
  calc (fields.filter (·.default.isNone)).map StubField.name
      = ((fields.map fun field => (field.name, field.default.isNone)).filter Prod.snd).map
          Prod.fst := by
        rw [List.filter_map, List.map_map]
        rfl
    _ = s.enforcedKeys := by
        rw [hrow, List.filter_map, List.map_map]
        rfl

/-! ### Entries -/

namespace Shape

variable {c : Catalog} {s : Shape} {accepts : Descriptor → Value → Noted Bool}

/-- The entry is admitted by itself: its key is that of a property, and its value is null where the
    property admits that, or it has the type of the property. -/
def AdmitsAlone (c : Catalog) (s : Shape) (e : Value × Value) : Prop :=
  ∃ spec ∈ s.specs, e.1 = .str spec.name ∧ ((e.2 = .null ∧ spec.options.nullable = true)
    ∨ (conforms (.within c) e.2 spec.descriptor).result = .ok true)

/-- An entry under the key of a property is checked against that property. -/
theorem result_admitsEntry {spec : PropertySpec} (hnames : (s.specs.map PropertySpec.name).Nodup)
    (hspec : spec ∈ s.specs) {v : Value} (hv : (v = .null ∧ spec.options.nullable = true)
      ∨ (accepts spec.descriptor v).result = .ok true) :
    (s.admitsEntry accepts spec.name v).result = .ok true := by
  unfold admitsEntry
  cases hfind : s.specs.find? fun other => other.name == spec.name with
  | none =>
    have hno := List.find?_eq_none.1 hfind spec hspec
    simp at hno
  | some other =>
    -- Names are not repeated, so the property that is found first is this one.
    have hkey : other.name = spec.name := by simpa using List.find?_some hfind
    obtain rfl := List.inj_on_of_nodup_map hnames (List.mem_of_find?_eq_some hfind) hspec hkey
    rcases hv with ⟨rfl, hnullable⟩ | hv
    · simp [hnullable]
    · -- Null is settled by the option before the descriptor is asked.
      cases v with
      | null => cases hnullable : other.options.nullable <;> simp [hnullable, hv]
      | _ => exact hv

/-- Among entries that are admitted, only missing keys matter. -/
theorem result_admits_dict (hobject : s.isObject = true) {es : List (Value × Value)}
    (hkeys : ∀ e ∈ es, e.1.isStr = true)
    (hes : ∀ e ∈ es, (s.admitsEntry accepts e.1.text e.2).result = .ok true) :
    (s.admits accepts (.dict es)).result = .ok (s.hasNeededKeys es) := by
  -- The entries are admitted, so the answer is left to the keys.
  have hall : (Noted.all (fun e => s.admitsEntry accepts e.1.text e.2) es).result = .ok true := by
    obtain ⟨b, hb, htrue⟩ := Noted.settles_all (p := fun _ => True) fun e he =>
      ⟨true, hes e he, by simp⟩
    rw [hb, htrue.2 fun _ _ => trivial]
  have htext : (Value.dict es).isTextKeyed = true := List.all_eq_true.2 hkeys
  unfold admits
  unfold isObject at hobject
  cases hbody : s.body with
  | type d o => simp [hbody] at hobject
  | object specs additional options parent => simp [htext, hall, Except.bind]

/-- Of a fixed record every key that is enforced is needed. -/
theorem hasNeededKeys_iff_enforced (hvalues : ∀ spec ∈ s.specs, spec.alwaysHasValue = true)
    {es : List (Value × Value)} :
    s.hasNeededKeys es = true ↔ ∀ key ∈ s.enforcedKeys, ∃ e ∈ es, e.1 = .str key := by
  rw [hasNeededKeys_iff, HasNeeded, enforcedKeys, List.forall_mem_map]
  simp only [List.mem_filter, PropertySpec.needsValue, Bool.and_eq_true, Bool.not_eq_true', and_imp]
  refine forall_congr' fun spec => forall_congr' fun hspec => ?_
  refine ⟨fun h hnullable hdefault => ?_, fun h _ => h⟩
  have hrequired := hvalues spec hspec
  simp only [PropertySpec.alwaysHasValue, hnullable, hdefault, Bool.or_false] at hrequired
  exact h hrequired hnullable hdefault

/-- A dictionary whose entries are admitted one by one is an object of a fixed record exactly when it
    has every key that is enforced. -/
theorem settles_admits_of_alone (hobject : s.isObject = true)
    (hnames : (s.specs.map PropertySpec.name).Nodup)
    (hvalues : ∀ spec ∈ s.specs, spec.alwaysHasValue = true) {es : List (Value × Value)}
    (hes : ∀ e ∈ es, s.AdmitsAlone c e) {fuel : Nat}
    (hfuel : ∀ e ∈ es, (Scope.within c).followLimit e.2 ≤ fuel) :
    (s.admits (Descriptor.accepts ((Scope.within c).follow fuel)) (.dict es)).Settles
      (∀ key ∈ s.enforcedKeys, ∃ e ∈ es, e.1 = .str key) := by
  refine ⟨_, result_admits_dict hobject (fun e he => ?_) (fun e he => ?_),
    hasNeededKeys_iff_enforced hvalues⟩
  · obtain ⟨spec, -, hkey, -⟩ := hes e he
    rw [hkey]
    rfl
  · obtain ⟨spec, hspec, hkey, hvalue⟩ := hes e he
    rw [hkey]
    refine result_admitsEntry hnames hspec (hvalue.imp_right fun hconforms => ?_)
    -- The value was checked with fewer names to follow.
    have hpersists : (conforms (.within c) e.2 spec.descriptor).Persists
        (spec.descriptor.accepts ((Scope.within c).follow fuel) e.2) :=
      Descriptor.accepts_congr_of_names Noted.composes_persists fun name _ w _ =>
        Scope.follow_persists_of_le (hfuel e he) name w
    exact hpersists true hconforms

end Shape

/-! ### All shapes -/

namespace Catalog

variable {c : Catalog}

/-- No value stands in the place of a type expression in a type signature. -/
theorem Reached.each_proper (hc : c.Reached) :
    ∀ s ∈ c.definitions, s.signature.Each TypeExpr.Proper := by
  refine hc.forall_shape fun c s _ _ hs => ?_
  exact hs.each_signature (fun _ hp => hp) (fun _ _ hu => TypeExpr.each_proper_ofNormalForm hu)
    (fun _ _ _ _ hu => TypeExpr.each_proper_ofNormalForm hu) (fun _ _ _ => nofun)
    (fun _ _ _ => nofun) nofun

/-- The views of an object shape are aligned. -/
theorem Reached.exists_aligned (hc : c.Reached) {s : Shape} (hs : s ∈ c.definitions)
    (hobject : s.isObject = true) : ∃ record, s.Aligned record ∧ s.RecordOf record := by
  obtain ⟨⟨record, hrecord⟩, -⟩ := hc.exists_recordOf s hs hobject
  exact ⟨record, (hc.declared s hs hobject).aligned hrecord (hc.distinctProperties s hs).specs, hrecord⟩

/-- The stub of an object shape is that of a record which is aligned with it. -/
theorem Reached.exists_withFields (hc : c.Reached) {s : Shape} (hs : s ∈ c.definitions)
    (hobject : s.isObject = true) :
    ∃ record fields extra, s.Aligned record
      ∧ (StubShape.ofShape s).result = .ok (.withFields s record fields extra)
      ∧ List.Forall₂ (fun f field => StubField.ofField s.specs f = .ok field) record.fields fields := by
  have hproper := hc.each_proper s hs
  obtain ⟨record, haligned, hrecord⟩ := hc.exists_aligned hs hobject
  have hstub := StubShape.ofShape_eq_ofRecord hobject hrecord.signature
  obtain ⟨fields, extra, hresult, hfields⟩ := StubShape.exists_ofRecord (s := s)
    (fun f hf => hproper.field hrecord.signature hf) fun e he => hproper.extra hrecord.signature he
  exact ⟨record, fields, extra, haligned, hstub ▸ hresult, hfields⟩

/-- Every shape has a stub of its name.  The fields without a default in the stub of an object are
    those for which a value must be supplied. -/
theorem Reached.exists_ofShape (hc : c.Reached) {s : Shape} (hs : s ∈ c.definitions) :
    ∃ stub, (StubShape.ofShape s).result = .ok stub ∧ stub.name = s.name
      ∧ (s.isObject = true →
        (stub.fields.filter (·.default.isNone)).map StubField.name = s.enforcedKeys) := by
  -- Type shapes have only a hint; the fields belong to objects.
  cases hobject : s.isObject with
  | false =>
    obtain ⟨text, htext⟩ := TypeExpr.exists_hint (hc.each_proper s hs)
    have hhint : s.hint = .ok text := htext
    cases hbody : s.body with
    | type d o =>
      exact ⟨_, by simp [StubShape.ofShape, hbody, hhint, Except.bind]; rfl, rfl, nofun⟩
    | object specs additional options parent => simp [Shape.isObject, hbody] at hobject
  | true =>
    obtain ⟨record, fields, extra, haligned, hresult, hfields⟩ := hc.exists_withFields hs hobject
    exact ⟨_, hresult, rfl, fun _ => haligned.names_without_default hfields⟩

/-- Three notions of a mandatory key agree on fixed records.  Every shape of a reached catalog has a
    stub; in the stub of an object the fields without a default are, in order, the keys that the shape
    enforces.  And a dictionary whose entries are admitted one by one conforms to a fixed record
    exactly when it has all of these keys. -/
theorem Reached.mandatory_keys_agree (hc : c.Reached) :
    (∃ stubs, c.stubs.result = .ok stubs ∧ List.Forall₂ (fun s stub => stub.name = s.name
      ∧ (s.isObject = true →
        (stub.fields.filter (·.default.isNone)).map StubField.name = s.enforcedKeys))
      c.definitions stubs)
    ∧ ∀ s ∈ c.definitions, s.isObject = true → s.representation = some .fixedRecord →
      ∀ es, (∀ e ∈ es, s.AdmitsAlone c e) →
        (conforms (.within c) (.dict es) (.named s.name)).Settles
          (∀ key ∈ s.enforcedKeys, ∃ e ∈ es, e.1 = .str key) := by
  refine ⟨StubShape.exists_ofShapes fun s hs => hc.exists_ofShape hs,
    fun s hs hobject hfixed es hes => ?_⟩
  · obtain ⟨-, hvalues⟩ := hc.exists_recordOf s hs hobject
    -- One step of following opens the shape; its entries are less deep than the dictionary.
    obtain ⟨fuel, hfuel⟩ := (Scope.within c).exists_followLimit_eq (.dict es)
    unfold conforms Descriptor.accepts
    rw [hfuel, follow_name hc.wellNamed hs]
    refine Shape.settles_admits_of_alone hobject (hc.distinctProperties s hs).specs (hvalues hfixed) hes
      fun e he => ?_
    have hlimit : (Scope.within c).followLimit e.2 < (Scope.within c).followLimit (.dict es) :=
      Scope.followLimit_lt (Value.depth_lt_dict he)
    omega

/-- The entries of a page without tags, for which there is a default. -/
def Pages.entries : List (Value × Value) :=
  [(.str "id", .str "home"), (.str "note", .str "draft"), (.str "body", .str "Hello")]

/-- The tags of a page may be left out; without a body it is no page. -/
theorem Reached.mandatory_keys_agree_pages :
    Pages.catalog.Reached ∧ Pages.page.enforcedKeys = ["id", "note", "body"]
      ∧ (conforms (.within Pages.catalog) (.dict Pages.entries) (.named "Page")).result = .ok true
      ∧ (conforms (.within Pages.catalog) (.dict Pages.entries.dropLast) (.named "Page")).result
        = .ok false := by
  have hc := Pages.reachable_catalog.reached
  have hkeys : Pages.page.enforcedKeys = ["id", "note", "body"] := by decide
  have halone : ∀ e ∈ Pages.entries, Pages.page.AdmitsAlone Pages.catalog e := by
    have hrows : Pages.page.specs.map (fun spec => (spec.name, spec.descriptor))
        = [("id", .scalar .string), ("tags", .array (.scalar .string)), ("note", .scalar .string),
          ("body", .scalar .string)] := rfl
    have hspecs : ∀ key ∈ ["id", "note", "body"], ∃ spec ∈ Pages.page.specs,
        (spec.name, spec.descriptor) = (key, .scalar .string) := by
      intro key hkey
      rw [← List.mem_map, hrows]
      simp only [List.mem_cons, List.not_mem_nil, or_false] at hkey
      rcases hkey with rfl | rfl | rfl <;> simp
    have hentries : ∀ e ∈ Pages.entries, ∃ key ∈ ["id", "note", "body"], ∃ text,
        e = (.str key, .str text) := by simp [Pages.entries]
    intro e he
    obtain ⟨key, hkey, text, rfl⟩ := hentries e he
    obtain ⟨spec, hspec, heq⟩ := hspecs key hkey
    obtain ⟨rfl, hdescriptor⟩ := Prod.mk.inj heq
    exact ⟨spec, hspec, rfl, .inr (hdescriptor ▸ rfl)⟩
  obtain ⟨-, hconforms⟩ := Reached.mandatory_keys_agree hc
  have hpage := hconforms _ Pages.page_mem_definitions rfl rfl
  obtain ⟨b, hb, hall⟩ := hpage _ halone
  obtain ⟨b', hb', hsome⟩ := hpage _ fun e he => halone e (List.dropLast_subset _ he)
  rw [hkeys] at hall hsome
  have hb₁ : b = true := hall.2 (by simp [Pages.entries])
  have hb₂ : b' = false := by
    rw [Bool.eq_false_iff, ne_eq, hsome]
    simp [Pages.entries]
  exact ⟨hc, hkeys, hb₁ ▸ hb, hb₂ ▸ hb'⟩

end Catalog

end DataShapes
