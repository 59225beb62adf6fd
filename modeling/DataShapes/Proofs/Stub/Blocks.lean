import DataShapes.Proofs.Catalog.MandatoryKeys
import DataShapes.Stub.Render

/-!
# The blocks of a stub module

Every shape of a reached catalog has a stub, and the module holds a block of lines for each of them.  The stub of an
object shape takes the name and the description of the shape and has a field for each of its properties; it is in
the functional form when one of their names cannot be an attribute.

Main definitions:
* `StubShape.Presents`: the stub is that of an object shape;
* `Catalog.Single.catalog`, `Catalog.Single.stub`: a catalog of one object with one text, and its stub;
* `StubModule.textOf`: the text of some lines.

Main statements:
* `Catalog.Reached.exists_module`: the module of a reached catalog, with the stub of each shape;
* `StubModule.exists_render_eq`: the block of a stub stands in the text of the module.
-/

namespace DataShapes

/-! ### Stubs of object shapes -/

/-- The stub presents the object shape: its name, its description and its properties in order.  It is a class unless
    some property has a name that cannot be an attribute. -/
structure StubShape.Presents (stub : StubShape) (s : Shape) : Prop where
  name : stub.name = s.name
  description : stub.description = s.schema.description
  fields : stub.fields.map StubField.name = s.specs.map PropertySpec.name
  names : (s.specs.map PropertySpec.name).Nodup
  functional : stub.functional = !s.specs.all (isAttributeName ·.name)
  kind : stub.kind ≠ .alias

/-- The fields of a stub are named like those of the record. -/
theorem StubField.map_name {specs : List PropertySpec} {fs : List FieldType} {fields : List StubField}
    (h : List.Forall₂ (fun f field => ofField specs f = .ok field) fs fields) :
    fields.map StubField.name = fs.map FieldType.name := by
  have hrow := congrArg (List.map Prod.fst) (map_isNone_default h)
  simpa [List.map_map, Function.comp_def] using hrow

/-- A stub with the stubs of all fields presents the shape. -/
theorem StubShape.presents_withFields {s : Shape} {record : RecordType} (h : s.Aligned record)
    {fields : List StubField}
    (hfields : List.Forall₂ (fun f field => StubField.ofField s.specs f = .ok field) record.fields fields)
    (extra : Option String) : (withFields s record fields extra).Presents s where
  name := rfl
  description := rfl
  fields := (StubField.map_name hfields).trans h.fields
  names := h.names
  -- The form depends on the names alone, which record and declarations share.
  functional := by
    have hall : fields.all (isAttributeName ·.name) = s.specs.all (isAttributeName ·.name) :=
      calc fields.all (isAttributeName ·.name)
          = (fields.map StubField.name).all isAttributeName := by
            rw [List.all_map]
            rfl
        _ = s.specs.all (isAttributeName ·.name) := by
            rw [StubField.map_name hfields, h.fields, List.all_map]
            rfl
    exact congrArg (!·) hall
  kind := by
    unfold withFields
    dsimp only
    split <;> nofun

namespace Catalog

variable {c : Catalog}

/-- Every shape has a stub, which presents it when it is an object. -/
theorem Reached.exists_presents (hc : c.Reached) {s : Shape} (hs : s ∈ c.definitions) :
    ∃ stub, (StubShape.ofShape s).result = .ok stub ∧ (s.isObject = true → stub.Presents s) := by
  cases hobject : s.isObject with
  | false =>
    obtain ⟨stub, hstub, -⟩ := hc.exists_ofShape hs
    exact ⟨stub, hstub, nofun⟩
  | true =>
    obtain ⟨record, fields, extra, haligned, hresult, hfields⟩ := hc.exists_withFields hs hobject
    exact ⟨_, hresult, fun _ => StubShape.presents_withFields haligned hfields extra⟩

/-- The module of a reached catalog holds the stubs of its shapes, in order. -/
theorem Reached.exists_module (hc : c.Reached) :
    ∃ stubs, c.stubs.result = .ok stubs ∧ c.stubModule.result = .ok (StubModule.render stubs)
      ∧ List.Forall₂ (fun s stub => s.isObject = true → stub.Presents s) c.definitions stubs := by
  obtain ⟨stubs, hstubs, hall⟩ := StubShape.exists_ofShapes fun s hs => hc.exists_presents hs
  have hresult : c.stubs.result = .ok stubs := hstubs
  exact ⟨stubs, hresult, by simp [stubModule, hresult, Except.bind], hall⟩

end Catalog

/-! ### Catalogs of one shape -/

namespace Catalog.Single

/-- An object with one text and a description. -/
def declaration (name key description : String) : ObjectDeclaration where
  name := .str name
  properties := [.spec ⟨key, .scalar .string, {}⟩]
  options := [(.str "description", .str description)]

/-- What the definition says. -/
def arguments (name key description : String) : ObjectArguments where
  name := name
  title := name
  options := { description := some (.str description) }
  specs := [⟨key, .scalar .string, {}⟩]
  additional := none
  parent := none

/-- The record of the object. -/
def record (name key : String) : RecordType :=
  ⟨some name, [.mk key (.primitive .string) true], .fixedRecord, none⟩

/-- The shape of the object. -/
def shape (name key description : String) : Shape :=
  (arguments name key description).shape {} (record name key).toExpr

/-- The catalog of the shape. -/
def catalog (name key description : String) : Catalog := ({} : Catalog).add (shape name key description)

variable {name key description : String}

/-- A single property of texts passes all checks. -/
theorem accepted (name key description : String) : (arguments name key description).Accepted {} where
  names := List.nodup_singleton _
  record := rfl
  specs := by
    intro s hs
    obtain rfl := List.mem_singleton.1 hs
    rfl
  additional := by
    intro e he
    cases he
  parent := by
    intro p hp
    cases hp

/-- It is read as a record with one field. -/
theorem signature (hname : name ≠ "") :
    (arguments name key description).signature {} = .ok (record name key).toExpr := by
  have hrequired : ((arguments name key description).schema {}).required.contains key = true := by
    have hkeys : ((arguments name key description).schema {}).required = [key] := rfl
    rw [hkeys, List.contains_cons, beq_self_eq_true, Bool.true_or]
  refine (TypeExpr.ofObject_eq_ok_iff hname).2
    ⟨_, _, TypeExpr.fieldsOf_eq_ok_iff.2 (.cons ⟨_, TypeExpr.ofSchema_scalar rfl, rfl⟩ .nil), rfl, ?_⟩
  show _ = TypeExpr.record (some name) [.mk key (.primitive .string)
    (((arguments name key description).schema {}).required.contains key)] .fixedRecord none
  rw [hrequired]
  rfl

theorem objectArguments (hname : name ≠ "") :
    ({} : Catalog).objectArguments (fun _ => none) (declaration name key description)
      = .ok (arguments name key description) :=
  objectArguments_eq_ok_iff.2
    ⟨newName_eq_ok_iff.2 ⟨rfl, hname, List.not_mem_nil⟩, rfl, rfl, rfl, rfl, rfl⟩

/-- The catalog with the one shape is reached for every name but the empty one. -/
theorem reached (hname : name ≠ "") : (catalog name key description).Reached := by
  have hdefine : (({} : Catalog).defineObject (fun _ => none) (declaration name key description)).result
      = .ok (catalog name key description, shape name key description) :=
    defineObject_eq_ok_iff.2 ⟨_, _, objectArguments hname, accepted name key description, signature hname, rfl, rfl⟩
  have hafter : ({} : Catalog).after [.object (declaration name key description)]
      = catalog name key description := by
    rw [after_cons, after_nil, step, define, hdefine]
  exact Reachable.reached ⟨"", _, hafter.symm⟩

/-- The stub of the shape. -/
def stub (name key description : String) : StubShape :=
  .withFields (shape name key description) (record name key) [{ name := key, hint := "str" }] none

/-- Its stub has the one field. -/
theorem result_ofShape (name key description : String) :
    (StubShape.ofShape (shape name key description)).result = .ok (stub name key description) := by
  -- The options of a field are found by name, and here is one only.
  have hoptions : StubField.optionsOf (shape name key description).specs key
      = { required := some true, inline := some false } := by
    show StubField.optionsOf [⟨key, .scalar .string, { required := some true, inline := some false }⟩] key = _
    simp [StubField.optionsOf]
  have hfield : StubField.ofField (shape name key description).specs (.mk key (.primitive .string) true)
      = .ok { name := key, hint := "str" } := by
    show Except.ok (StubField.mk key "str" true (StubField.defaultOf
      (StubField.optionsOf (shape name key description).specs key))) = _
    rw [hoptions]
    rfl
  refine StubShape.result_ofRecord ?_ rfl
  exact Outcome.mapM_eq_ok_iff.2 (.cons hfield .nil)

/-- There are no other stubs. -/
theorem result_stubs (name key description : String) :
    (catalog name key description).stubs.result = .ok [stub name key description] := by
  show (StubShape.ofShapes [shape name key description]).result = _
  simp [StubShape.ofShapes, result_ofShape, Except.bind]

end Catalog.Single

/-! ### Blocks in the text -/

namespace StubModule

/-- The text of some lines. -/
def textOf (lines : List String) : List Char := lines.flatMap fun line => line.toList ++ ['\n']

/-- Two rows of lines make one text. -/
theorem textOf_append (as bs : List String) : textOf (as ++ bs) = textOf as ++ textOf bs :=
  List.flatMap_append

/-- Every line has a line feed behind it. -/
theorem textOf_cons (line : String) (lines : List String) :
    textOf (line :: lines) = line.toList ++ '\n' :: textOf lines := by
  simp [textOf]

/-- The module is the text of its lines. -/
theorem toList_render (stubs : List StubShape) : (render stubs).toList = textOf (lines stubs) := by
  simp [render, textOf, String.toList_join, List.flatMap_map]

/-- The block of a stub stands in the text of the module, at the start of a line. -/
theorem exists_render_eq {stubs : List StubShape} {stub : StubShape} (h : stub ∈ stubs) :
    ∃ before after, (render stubs).toList = before ++ '\n' :: (textOf stub.lines ++ after) := by
  obtain ⟨front, back, rfl⟩ := List.append_of_mem h
  -- Two empty lines stand in front of each block.
  refine ⟨textOf (lines front) ++ ['\n'], textOf (back.flatMap fun s => ["", ""] ++ s.lines), ?_⟩
  rw [toList_render]
  unfold lines
  rw [List.flatMap_append, List.flatMap_cons]
  simp only [textOf_append, textOf_cons, String.toList_empty, List.append_assoc, List.nil_append,
    List.cons_append]

end StubModule

end DataShapes
