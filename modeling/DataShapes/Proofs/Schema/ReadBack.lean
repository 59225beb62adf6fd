import DataShapes.Proofs.Document.Walk

/-!
# Reading a written schema back

The written form of a schema leaves much out: keywords that are not given, the kind of a union, the
names of required properties when there are none.  What is left out can be told from the rest, as
the kind of an assembled node goes with its parts.  So an assembled schema can be read back from its
written form, and two of them that are written alike are equal.

Main definitions:
* `Facets.ofEntries`, `Schema.ofValue`: the keywords and the schema that entries stand for.

Main statements:
* `Schema.ofValue_toValue`: a schema whose nodes are assembled is read back from its written form;
* `Catalog.Reached.toValue_determines`: so is each node of the schemas of reached catalogs, and it is
  determined by its written form.
-/

namespace DataShapes

/-! ### Keywords without schemas -/

namespace SchemaKind

/-- The name of a kind is read back. -/
@[simp] theorem ofName?_name (k : SchemaKind) : ofName? k.name = some k := by
  cases k <;> decide

end SchemaKind

namespace Representation

/-- The representation with the given word. -/
def ofName? (s : String) : Option Representation :=
  [fixedRecord, openMap].find? fun r => r.name == s

/-- The name of a representation is read back. -/
@[simp] theorem ofName?_name (r : Representation) : ofName? r.name = some r := by
  cases r <;> decide

end Representation

namespace Facets

variable (es : List (Value × Value))

/-- The text under a keyword. -/
def textUnder (key : String) : Option String := (Value.lookup es (.str key)).bind Value.str?

/-- The list under a keyword. -/
def listUnder (key : String) : Option (List Value) :=
  match Value.lookup es (.str key) with
  | some (.list vs) => some vs
  | _ => none

/-- The representation among the keywords. -/
def representationIn : Option Representation :=
  (textUnder es "x-representation").bind Representation.ofName?

/-- The kind that keywords tell: a union has no word for it, but members. -/
def kindIn : SchemaKind :=
  if (Value.lookup es (.str "oneOf")).isSome then .union
  else ((textUnder es "type").bind SchemaKind.ofName?).getD .null

/-- The names of required properties that keywords tell.  Where there is no list of names, the node
    of an object shape, which has a representation, has no required properties. -/
def requiredIn : Option (List String) :=
  match listUnder es "required" with
  | some names => some (names.filterMap Value.str?)
  | none => (representationIn es).map fun _ => []

/-- The keywords without schemas that entries stand for. -/
def ofEntries : Facets where
  kind := kindIn es
  title := textUnder es "title"
  nullable := (Value.lookup es (.str "nullable")).any (· == .bool true)
  required := requiredIn es
  default := Value.lookup es (.str "default")
  enumeration := listUnder es "enum"
  pattern := Value.lookup es (.str "pattern")
  format := Value.lookup es (.str "format")
  description := Value.lookup es (.str "description")
  sample := Value.lookup es (.str "example")
  representation := representationIn es

end Facets

/-! ### Schemas -/

namespace Schema

/-- The path under the keyword for references. -/
def pathIn (es : List (Value × Value)) : Option String := Facets.textUnder es "$ref"

mutual

/-- The schema that a written schema stands for. -/
def ofValue : Value → Schema
  | .dict es =>
    match pathIn es with
    | some path => .reference path
    | none =>
      .node (Facets.ofEntries es) (propertiesIn es) (partUnder "items" es)
        (partUnder "additionalProperties" es) (membersIn es)
  | _ => default

/-- The schema under a keyword. -/
def partUnder (keyword : String) : List (Value × Value) → Option Schema
  | [] => none
  | (key, v) :: es => if key == .str keyword then some (ofValue v) else partUnder keyword es

/-- The schemas of members. -/
def membersIn : List (Value × Value) → Option (List Schema)
  | [] => none
  | (key, v) :: es =>
    if key == .str "oneOf" then
      match v with
      | .list vs => some (ofValues vs)
      | _ => none
    else membersIn es

/-- The schemas of properties. -/
def propertiesIn : List (Value × Value) → Option (List (String × Schema))
  | [] => none
  | (key, v) :: es =>
    if key == .str "properties" then
      match v with
      | .dict properties => some (ofPropertyEntries properties)
      | _ => none
    else propertiesIn es

/-- The schemas that the values of a list stand for. -/
def ofValues : List Value → List Schema
  | [] => []
  | v :: vs => ofValue v :: ofValues vs

/-- The schemas that the values of a dictionary stand for, under their keys. -/
def ofPropertyEntries : List (Value × Value) → List (String × Schema)
  | [] => []
  | (key, v) :: es => (key.str?.getD "", ofValue v) :: ofPropertyEntries es

end

/-! ### Look-ups -/

/-- A part is read back from what is written under its keyword. -/
theorem partUnder_record (keyword : String) (es : List (String × Value)) :
    partUnder keyword (es.map fun e => (.str e.1, e.2)) = (Table.get? es keyword).map ofValue := by
  induction es with
  | nil => rfl
  | cons e es ih =>
    obtain ⟨k, v⟩ := e
    rw [List.map_cons, partUnder, Value.str_beq, Table.get?, ih]
    by_cases h : k = keyword
    · rw [if_pos (beq_iff_eq.2 h), if_pos h, Option.map_some]
    · rw [if_neg (by simpa using h), if_neg h]

/-- Members are read back when they are written as a list. -/
theorem membersIn_record (es : List (String × Value)) :
    membersIn (es.map fun e => (.str e.1, e.2))
      = match Table.get? es "oneOf" with
        | some (.list vs) => some (ofValues vs)
        | _ => none := by
  induction es with
  | nil => rfl
  | cons e es ih =>
    obtain ⟨k, v⟩ := e
    rw [Table.get?]
    by_cases h : k = "oneOf"
    · cases v <;> simp [membersIn, Value.str_beq, h]
    · cases v <;> simp [membersIn, Value.str_beq, h, ih]

/-- Properties are read back when they are written as a record. -/
theorem propertiesIn_record (es : List (String × Value)) :
    propertiesIn (es.map fun e => (.str e.1, e.2))
      = match Table.get? es "properties" with
        | some (.dict properties) => some (ofPropertyEntries properties)
        | _ => none := by
  induction es with
  | nil => rfl
  | cons e es ih =>
    obtain ⟨k, v⟩ := e
    rw [Table.get?]
    by_cases h : k = "properties"
    · cases v <;> simp [propertiesIn, Value.str_beq, h]
    · cases v <;> simp [propertiesIn, Value.str_beq, h, ih]

theorem ofValues_eq (vs : List Value) : ofValues vs = vs.map ofValue := by
  induction vs with
  | nil => rfl
  | cons v vs ih => rw [ofValues, ih, List.map_cons]

/-- They are read back one by one, under their names. -/
theorem ofPropertyEntries_record (es : List (String × Value)) :
    ofPropertyEntries (es.map fun e => (.str e.1, e.2)) = es.map fun e => (e.1, ofValue e.2) := by
  induction es with
  | nil => rfl
  | cons e es ih => rw [List.map_cons, ofPropertyEntries, ih, List.map_cons, Value.str?,
      Option.getD_some]

end Schema

/-! ### The way back -/

section Node

variable {f : Facets} {ps : Option (List (String × Schema))} {i a : Option Schema}
  {ms : Option (List Schema)}

/-- The entries of a written node. -/
abbrev Schema.writtenEntries (f : Facets) (ps : Option (List (String × Schema))) (i a : Option Schema)
    (ms : Option (List Schema)) : List (Value × Value) :=
  (Schema.keywords f ps i a ms).map fun e => (.str e.1, e.2)

/-- Written names are read back. -/
theorem Facets.filterMap_str? (names : List String) :
    (names.map Value.str).filterMap Value.str? = names := by
  rw [List.filterMap_map]
  exact List.filterMap_some

/-- The representation of an object is read back; no other schema has one. -/
theorem Facets.representationIn_keywords (hrep : f.kind ≠ .object → f.representation = none) :
    representationIn (Schema.writtenEntries f ps i a ms) = f.representation := by
  rw [representationIn, textUnder, Value.lookup_record, Schema.get?_keywords]
  by_cases hkind : f.kind = .object
  · cases f.representation <;> simp [hkind, Value.str?]
  · simp [hkind, hrep hkind]

/-- The kind is read back from the type, or from the members where there is none. -/
theorem Facets.kindIn_keywords : kindIn (Schema.writtenEntries f ps i a ms) = f.kind := by
  rw [kindIn, textUnder, Value.lookup_record, Value.lookup_record, Schema.get?_keywords,
    Schema.get?_keywords]
  by_cases hkind : f.kind = .union
  · simp [hkind]
  · simp [hkind, Value.str?]

/-- The required names of an assembled node are told by its keywords. -/
theorem Facets.requiredIn_keywords (hrep : f.kind ≠ .object → f.representation = none)
    (hrequired : f.kind ≠ .object → f.required = none)
    (hboth : f.required = none ↔ f.representation = none) :
    requiredIn (Schema.writtenEntries f ps i a ms) = f.required := by
  have hlist : listUnder (Schema.writtenEntries f ps i a ms) "required"
      = f.required.bind fun names => if names = [] then none else some (names.map .str) := by
    rw [listUnder, Value.lookup_record, Schema.get?_keywords]
    by_cases hkind : f.kind = .object
    · cases hnames : f.required with
      | none => simp [hkind, requiredValue, hnames]
      | some names => by_cases hempty : names = [] <;> simp [hkind, requiredValue, hnames, hempty]
    · simp [hkind, hrequired hkind]
  rw [requiredIn, hlist, representationIn_keywords hrep]
  cases hnames : f.required with
  | none => simp [hboth.1 hnames]
  | some names =>
    -- An empty list is not written, but then the representation is.
    have hsome : f.representation ≠ none := fun h => by simp [hboth.2 h] at hnames
    obtain ⟨r, hr⟩ := Option.ne_none_iff_exists'.1 hsome
    by_cases hempty : names = []
    · simp [hempty, hr]
    · simp only [Option.bind_some, if_neg hempty, filterMap_str?]

/-- The keywords without schemas of an assembled node are read back. -/
theorem Facets.ofEntries_keywords (h : Schema.Assembled (.node f ps i a ms)) :
    ofEntries (Schema.writtenEntries f ps i a ms) = f := by
  -- Required names and a representation are written for objects only, and assembled nodes have them nowhere
  -- else.
  have hother : f.kind ≠ .object → f.required = none ∧ f.representation = none := by
    intro hkind
    cases h with
    | object hobject _ => exact absurd hobject hkind
    | array _ hrequired hrep => exact ⟨hrequired, hrep⟩
    | union _ hrequired hrep => exact ⟨hrequired, hrep⟩
    | scalar _ hrequired hrep => exact ⟨hrequired, hrep⟩
  have hboth : f.required = none ↔ f.representation = none := by
    cases h with
    | object _ hboth => exact hboth
    | array _ hrequired hrep => exact ⟨fun _ => hrep, fun _ => hrequired⟩
    | union _ hrequired hrep => exact ⟨fun _ => hrep, fun _ => hrequired⟩
    | scalar _ hrequired hrep => exact ⟨fun _ => hrep, fun _ => hrequired⟩
  have hrep : f.kind ≠ .object → f.representation = none := fun hkind => (hother hkind).2
  have hrequired : f.kind ≠ .object → f.required = none := fun hkind => (hother hkind).1
  have hnullable : ∀ b : Bool, ((.bool b : Value) == .bool true) = b := by
    intro b
    show Value.equal (.bool b) (.bool true) = b
    cases b <;> rfl
  unfold ofEntries
  rw [kindIn_keywords, requiredIn_keywords hrep hrequired hboth, representationIn_keywords hrep]
  obtain ⟨kind, title, nullable, required, default, enumeration, pattern, format, description, sample,
    representation⟩ := f
  simp only [textUnder, listUnder, Value.lookup_record, Schema.get?_keywords]
  cases title <;> cases enumeration <;> simp [hnullable, Value.str?]

end Node

namespace Schema

/-- Members are read back when each of them is. -/
theorem ofValues_toValues {ss : List Schema} (h : ∀ s ∈ ss, ofValue s.toValue = s) :
    ofValues (toValues ss) = ss := by
  rw [ofValues_eq, toValues_eq, List.map_map]
  exact (List.map_congr_left h).trans (List.map_id ss)

/-- Properties are read back, with their names, when the schema of each of them is. -/
theorem ofPropertyEntries_propertyEntries {ps : List (String × Schema)}
    (h : ∀ p ∈ ps, ofValue p.2.toValue = p.2) :
    ofPropertyEntries ((propertyEntries ps).map fun e => (.str e.1, e.2)) = ps := by
  rw [ofPropertyEntries_record, propertyEntries_eq, List.map_map]
  have hpair : ∀ p ∈ ps, (p.1, ofValue p.2.toValue) = p := fun p hp => Prod.ext rfl (h p hp)
  exact (List.map_congr_left hpair).trans (List.map_id ps)

/-- A part is read back when its schema is. -/
theorem map_ofValue_partToValue {s : Option Schema} (h : ∀ t, s = some t → ofValue t.toValue = t) :
    (partToValue s).map ofValue = s := by
  cases s with
  | none => rfl
  | some t => exact congrArg some (h t rfl)

/-- A node is read back when its parts are. -/
theorem ofValue_toValue_node {f : Facets} {ps : Option (List (String × Schema))}
    {i a : Option Schema} {ms : Option (List Schema)} (h : Assembled (.node f ps i a ms))
    (hchild : ∀ c ∈ (node f ps i a ms).children, ofValue c.toValue = c) :
    ofValue (toValue (.node f ps i a ms)) = .node f ps i a ms := by
  have hpath : pathIn (Schema.writtenEntries f ps i a ms) = none := by
    rw [pathIn, Facets.textUnder, Value.lookup_record, get?_keywords]
    simp
  rw [toValue_node h.kind_ne_null, Value.record, ofValue, hpath, Facets.ofEntries_keywords h,
    propertiesIn_record, partUnder_record, partUnder_record, membersIn_record]
  simp only [get?_keywords]
  -- The kind says which parts there are, and so which keywords hold schemas.
  simp only [children, List.mem_append, Option.mem_toList, List.mem_map] at hchild
  cases h with
  | @object _ ps a hobject _ =>
    have hps : ofPropertyEntries ((propertyEntries ps).map fun e => (.str e.1, e.2)) = ps :=
      ofPropertyEntries_propertyEntries fun p hp => hchild p.2 (.inr ⟨p, hp, rfl⟩)
    have ha : (partToValue a).map ofValue = a :=
      map_ofValue_partToValue fun t ht => hchild t (.inl (.inl (.inr ht)))
    simp [hobject, Value.record, propertiesToEntries, partToValue, hps, ha]
  | @array _ i harray _ _ =>
    have hi : (partToValue (some i)).map ofValue = some i :=
      map_ofValue_partToValue fun t ht => hchild t (.inl (.inl (.inl ht)))
    simp [harray, hi]
  | @union _ ms hunion _ _ =>
    have hms : ofValues (toValues ms) = ms :=
      ofValues_toValues fun s hs => hchild s (.inl (.inr hs))
    simp [hunion, membersToValues, partToValue, hms]
  | scalar hscalar _ _ =>
    have hobject : f.kind ≠ .object := by
      intro hkind
      rw [hkind] at hscalar
      cases hscalar
    have hunion : f.kind ≠ .union := by
      intro hkind
      rw [hkind] at hscalar
      cases hscalar
    simp [hobject, hunion, partToValue]

/-- A schema whose nodes are assembled is read back from its written form. -/
theorem ofValue_toValue {s : Schema} (h : s.Each Assembled) : ofValue s.toValue = s := by
  induction s using induction_children with
  | h s ih =>
    cases s with
    | reference path =>
      rw [toValue, Value.record, ofValue, pathIn, Facets.textUnder, Value.lookup_record]
      simp [Table.get?, Value.str?]
    | node f ps i a ms =>
      exact ofValue_toValue_node h.self fun c hc => ih c hc (h.child hc)

end Schema

namespace Catalog

/-- Writing loses nothing of a schema.  Each node of the schemas of a reached catalog is read back
    from its written form; so nodes of reached catalogs that are written alike are equal. -/
theorem Reached.toValue_determines {c : Catalog} (hc : c.Reached) {s : Shape}
    (hs : s ∈ c.definitions) {n : Schema} (hn : n ∈ s.schema.nodes) :
    Schema.ofValue n.toValue = n
      ∧ ∀ (c' : Catalog) (s' : Shape) (n' : Schema), c'.Reached → s' ∈ c'.definitions →
          n' ∈ s'.schema.nodes → n.toValue = n'.toValue → n = n' := by
  have hread : ∀ {c : Catalog} {s : Shape} {n : Schema}, c.Reached → s ∈ c.definitions →
      n ∈ s.schema.nodes → Schema.ofValue n.toValue = n := fun hc hs hn =>
    Schema.ofValue_toValue ((hc.assembled _ hs).of_mem_nodes hn)
  refine ⟨hread hc hs hn, ?_⟩
  intro c' s' n' hc' hs' hn' heq
  calc n = Schema.ofValue n.toValue := (hread hc hs hn).symm
    _ = Schema.ofValue n'.toValue := by rw [heq]
    _ = n' := hread hc' hs' hn'

/-- Entries are read back from their written schema, in which a property is named like the keyword
    for references; and the reference in them is the one in paths, which is written alike. -/
theorem Reached.toValue_determines_entries :
    Entries.catalog.Reached ∧ Entries.entry ∈ Entries.catalog.definitions
      ∧ Schema.ofValue Entries.entry.schema.toValue = Entries.entry.schema
      ∧ (Schema.reference "#/definitions/Key").toValue = (Schema.toTitle "Key").toValue
      ∧ Schema.reference "#/definitions/Key" = Schema.toTitle "Key" := by
  have hc : Entries.catalog.Reached := Entries.reachable_catalog.reached
  have hself : Entries.entry.schema ∈ Entries.entry.schema.nodes :=
    Schema.mem_nodes_iff.2 (.inl rfl)
  obtain ⟨hread, -⟩ := Reached.toValue_determines hc Entries.entry_mem_definitions hself
  -- The reference to keys is a part of entries, and of paths in another catalog.
  have hpaths : ((({} : Catalog).add Trees.key).add Trees.path).Reachable :=
    ⟨"", _, Trees.after_paths.symm⟩
  have hentry : Schema.reference "#/definitions/Key" ∈ Entries.entry.schema.nodes :=
    .tail _ (.head _)
  have hpath : Schema.toTitle "Key" ∈ Trees.path.schema.nodes := .tail _ (.head _)
  obtain ⟨-, hequal⟩ := Reached.toValue_determines hc Entries.entry_mem_definitions hentry
  have halike : (Schema.reference "#/definitions/Key").toValue = (Schema.toTitle "Key").toValue := rfl
  exact ⟨hc, Entries.entry_mem_definitions, hread, halike,
    hequal _ Trees.path _ hpaths.reached (self_mem_definitions_add (by decide)) hpath halike⟩

end Catalog

end DataShapes
