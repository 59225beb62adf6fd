import DataShapes.Proofs.Table
import DataShapes.Schema.Keywords

/-!
# Looking up a keyword of a written node

A written node is a table of keywords, some of which are left out.  What is found under a keyword
follows from the node alone: no keyword is written twice, and the names of properties stand in a
dictionary of their own.

Main definitions:
* `Schema.keywords`: the keywords of a written node.

Main statements:
* `Schema.toValue_node`: a node is written as its keywords;
* `Schema.get?_keywords`: what is found under each keyword.
-/

namespace DataShapes

namespace Facets

/-- A keyword is found under its own name alone, when it is written. -/
theorem get?_keyword (name key : String) (v : Option Value) :
    Table.get? (keyword name v) key = if key = name then v else none := by
  cases v with
  | none => simp [keyword]
  | some v => simp [keyword, Table.get?, @eq_comm _ key]

theorem head_eq (f : Facets) : f.head = keyword "title" (f.title.map .str) := by
  unfold head
  split <;> simp_all [keyword]

/-- What is written for the required names of an object. -/
def requiredValue (f : Facets) : Option Value :=
  f.required.bind fun names => if names = [] then none else some (.list (names.map .str))

theorem requiredKeyword_eq (f : Facets) : f.requiredKeyword = keyword "required" f.requiredValue := by
  unfold requiredKeyword requiredValue
  split
  · rename_i name names heq
    rw [heq, Option.bind_some, if_neg (List.cons_ne_nil name names)]
    rfl
  · -- There is no list of names, or an empty one.
    rename_i hnone
    cases hrequired : f.required with
    | none => rfl
    | some names =>
      cases names with
      | nil => rfl
      | cons name names => exact absurd hrequired (hnone name names)

theorem representationKeyword_eq (f : Facets) :
    f.representationKeyword
      = keyword "x-representation" (f.representation.map fun r => .str r.name) := by
  unfold representationKeyword
  split <;> simp_all [keyword]

end Facets

namespace Schema

/-- The keywords of a written node. -/
def keywords (f : Facets) (ps : Option (List (String × Schema))) (i a : Option Schema)
    (ms : Option (List Schema)) : List (String × Value) :=
  f.head
    ++ (if f.kind = .union then [("oneOf", .list (membersToValues ms))]
        else [("type", .str f.kind.name)])
    ++ [("nullable", .bool f.nullable)]
    ++ (if f.kind = .object then
          [("properties", Value.record (propertiesToEntries ps))] ++ f.requiredKeyword
            ++ Facets.keyword "additionalProperties" (partToValue a) ++ f.representationKeyword
        else [])
    ++ Facets.keyword "items" (partToValue i) ++ f.tail

variable {f : Facets} {ps : Option (List (String × Schema))} {i a : Option Schema}
  {ms : Option (List Schema)}

/-- A schema is written as the record of its keywords. -/
theorem toValue_node (h : f.kind ≠ .null) :
    toValue (.node f ps i a ms) = Value.record (keywords f ps i a ms) := by
  rw [toValue, if_neg h, keywords]

/-- A keyword that only one kind of node has. -/
private theorem get?_ite {p : Prop} [Decidable p] (es fs : List (String × Value)) (key : String) :
    Table.get? (if p then es else fs) key = if p then Table.get? es key else Table.get? fs key := by
  split <;> rfl

/-- What is found under each keyword of a written node. -/
theorem get?_keywords (key : String) :
    Table.get? (keywords f ps i a ms) key
      = (if key = "title" then f.title.map Value.str else none).or
        ((if f.kind = .union then if key = "oneOf" then some (.list (membersToValues ms)) else none
          else if key = "type" then some (.str f.kind.name) else none).or
        ((if key = "nullable" then some (.bool f.nullable) else none).or
        ((if f.kind = .object then
            (if key = "properties" then some (Value.record (propertiesToEntries ps)) else none).or
            ((if key = "required" then f.requiredValue else none).or
            ((if key = "additionalProperties" then partToValue a else none).or
            (if key = "x-representation" then f.representation.map fun r => .str r.name else none)))
          else none).or
        ((if key = "items" then partToValue i else none).or
        ((if key = "default" then f.default else none).or
        ((if key = "enum" then f.enumeration.map Value.list else none).or
        ((if key = "pattern" then f.pattern else none).or
        ((if key = "format" then f.format else none).or
        ((if key = "description" then f.description else none).or
        (if key = "example" then f.sample else none)))))))))) := by
  -- The keywords are distinct, so a look-up tries them one after the other.
  have hone : ∀ (name : String) (v : Value),
      Table.get? [(name, v)] key = if key = name then some v else none := fun name v =>
    Facets.get?_keyword name key (some v)
  simp only [keywords, Facets.head_eq, Facets.requiredKeyword_eq, Facets.representationKeyword_eq,
    Facets.tail, Table.get?_append, get?_ite, hone, Facets.get?_keyword, Table.get?_nil,
    Option.or_assoc]

end Schema

end DataShapes
