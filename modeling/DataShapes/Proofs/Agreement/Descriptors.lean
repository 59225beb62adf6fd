import DataShapes.Proofs.Agreement.Normal
import DataShapes.Proofs.Catalog.Nodes

/-!
# Declarations admit what their schemas admit

A declaration says directly which values it admits, without a schema in between.  The schema that is
built from it admits the same values, when every name stands for a schema that admits the values of
the name.

Main definitions:
* `Descriptor.Admits`, `Descriptor.AdmitsAs`: the values of a descriptor, alone and with options;
* `Shape.Admits`: the values of a shape by its declaration.

Main statements:
* `Descriptor.admits_build_iff`: the schema of a descriptor admits what the descriptor admits.
-/

namespace DataShapes

/-! ### Values of declarations -/

namespace Descriptor

/-- The descriptor admits the value, where names mean the shapes of the catalog. -/
inductive Admits (c : Catalog) : Descriptor → Value → Prop
  | scalar {kind : ScalarKind} {v : Value} : v.hasKind kind = true → Admits c (.scalar kind) v
  | list {item : Descriptor} {items : List Value} : (∀ x ∈ items, Admits c item x) →
      Admits c (.array item) (.list items)
  | tuple {item : Descriptor} {items : List Value} : (∀ x ∈ items, Admits c item x) →
      Admits c (.array item) (.tuple items)
  | map {value : Descriptor} {es : List (Value × Value)} : (∀ e ∈ es, e.1.isStr = true) →
      (∀ e ∈ es, Admits c value e.2) → Admits c (.map value) (.dict es)
  | member {members : List Descriptor} {m : Descriptor} {v : Value} : m ∈ members → Admits c m v →
      Admits c (.union members) v
  | named {name : String} {v : Value} : Inhabits c v (.named name) → Admits c (.named name) v

/-- A value of the descriptor, or null where the options admit it. -/
def AdmitsAs (c : Catalog) (d : Descriptor) (o : PropertyOptions) (v : Value) : Prop :=
  (o.nullable = true ∧ v = .null) ∨ d.Admits c v

section Inversion

variable {c : Catalog} {v : Value}

/-- A scalar admits the values of its kind. -/
theorem admits_scalar_iff {kind : ScalarKind} :
    (Descriptor.scalar kind).Admits c v ↔ v.hasKind kind = true :=
  ⟨fun h => by cases h; assumption, .scalar⟩

/-- An array admits the lists and tuples of what its items admit. -/
theorem admits_array_iff {item : Descriptor} :
    (Descriptor.array item).Admits c v ↔ v.IsArrayOf (item.Admits c) := by
  constructor
  · intro h
    cases h with
    | list hitems => exact ⟨_, .inl rfl, hitems⟩
    | tuple hitems => exact ⟨_, .inr rfl, hitems⟩
  · rintro ⟨items, rfl | rfl, hitems⟩
    · exact .list hitems
    · exact .tuple hitems

/-- A map admits the dictionaries from texts to what its values admit. -/
theorem admits_map_iff {value : Descriptor} :
    (Descriptor.map value).Admits c v ↔ v.IsMapOf (value.Admits c) := by
  constructor
  · intro h
    cases h with
    | map hkeys hvalues => exact ⟨_, rfl, hkeys, hvalues⟩
  · rintro ⟨es, rfl, hkeys, hvalues⟩
    exact .map hkeys hvalues

/-- A union admits what its members admit. -/
theorem admits_union_iff {members : List Descriptor} :
    (Descriptor.union members).Admits c v ↔ ∃ m ∈ members, m.Admits c v := by
  constructor
  · intro h
    cases h with
    | member hm h => exact ⟨_, hm, h⟩
  · rintro ⟨m, hm, h⟩
    exact .member hm h

/-- A name admits the values of the type with that name. -/
theorem admits_named_iff {name : String} :
    (Descriptor.named name).Admits c v ↔ Inhabits c v (.named name) :=
  ⟨fun h => by cases h; assumption, .named⟩

/-- No option of a container that admits null holds for its parts. -/
theorem admitsAs_forPart_iff {d : Descriptor} {o : PropertyOptions} :
    d.AdmitsAs c o.forPart v ↔ d.Admits c v := by
  show (false = true ∧ v = .null) ∨ d.Admits c v ↔ d.Admits c v
  simp

end Inversion

end Descriptor

/-- The shape admits the value by its declaration. -/
def Shape.Admits (c : Catalog) (s : Shape) (v : Value) : Prop :=
  match s.body with
  | .type d o => d.AdmitsAs c o v
  | .object specs additional options _ =>
    (options.nullable = true ∧ v = .null)
      ∨ v.IsObjectOf s (FitsEntry PropertySpec.name specs additional
        (fun spec x => spec.descriptor.AdmitsAs c spec.options x) fun e x => e.1.AdmitsAs c e.2 x)

/-! ### Schemas of declarations -/

/-- Plain nodes have distinct properties: they have none. -/
theorem Schema.IsPlain.distinctKeys {s : Schema} (h : s.IsPlain) : s.DistinctKeys := by
  cases s with
  | reference path => trivial
  | node f ps i a ms =>
    obtain ⟨-, -, hps⟩ := h
    simp [DistinctKeys, hps, Table.keys]

namespace Descriptor

variable {c : Catalog} {n : Naming} {d : Descriptor} {o : PropertyOptions} {v : Value}

/-- What is wrapped admits null besides, where the options do. -/
theorem admits_wrap_iff {s : Schema} :
    (Assembly.wrap o s).Admits c v ↔ (o.nullable = true ∧ v = .null) ∨ s.Admits c v := by
  unfold Assembly.wrap
  split
  · rw [Schema.admits_union_iff rfl]
    simp
  · rename_i hplain
    have hflag : o.nullable = false := by
      cases hn : o.nullable with
      | false => rfl
      | true => simp [hn] at hplain
    simp [hflag]

/-- The schema of a descriptor admits what the descriptor admits, when every name stands for a
    schema that admits the values of the name. -/
theorem admits_build_iff (hwell : d.WellFormed = true)
    (hkeys : ∀ name ∈ d.names, (n.target name o).Each Schema.DistinctKeys)
    (h : ∀ name ∈ d.names, ∀ x, (n.target name o).Admits c x ↔ Inhabits c x (.named name)) :
    (d.build n o).Admits c v ↔ d.AdmitsAs c o v := by
  induction d using induction_parts generalizing o v with
  | scalar kind =>
    rw [build, Schema.leaf, Schema.admits_scalar_iff (SchemaKind.scalar?_ofScalar kind), AdmitsAs,
      admits_scalar_iff]
  -- Null that the options admit is admitted at the root only: parts are built without it.
  | array item ih =>
    have hitem : v.IsArrayOf ((item.build n o.forPart).Admits c) ↔ v.IsArrayOf (item.Admits c) := by
      refine Value.IsArrayOf.congr fun x => ?_
      rw [ih (o := o.forPart) hwell hkeys h, admitsAs_forPart_iff]
    rw [build, Schema.admits_array_iff rfl, AdmitsAs, admits_array_iff, ← hitem]
    simp [Assembly.containerFacets]
  | map value ih =>
    have hvalue : v.IsMapOf ((value.build n o.forPart).Admits c) ↔ v.IsMapOf (value.Admits c) := by
      refine Value.IsMapOf.congr fun x => ?_
      rw [ih (o := o.forPart) hwell hkeys h, admitsAs_forPart_iff]
    rw [build, Schema.admits_map_iff rfl ⟨rfl, rfl, rfl⟩, AdmitsAs, admits_map_iff, ← hvalue]
    simp [Assembly.containerFacets]
  | union members ih =>
    rw [WellFormed, allWellFormed_iff] at hwell
    have hmem : ∀ m ∈ members, ∀ name ∈ m.names, name ∈ (Descriptor.union members).names :=
      fun m hm name hname => mem_names_union.2 ⟨m, hm, hname⟩
    have hbuilt : ∀ m ∈ members, (m.build n o.forPart).Each Schema.DistinctKeys := fun m hm =>
      each_build (fun _ hs _ => hs.distinctKeys) fun name hname => hkeys name (hmem m hm name hname)
    -- Dropping equal members drops no value.
    have hdistinct : (∃ s ∈ distinct (members.map fun m => m.build n o.forPart), s.Admits c v)
        ↔ ∃ s ∈ members.map fun m => m.build n o.forPart, s.Admits c v := by
      refine exists_mem_distinct_iff fun x hx y hy hxy => ?_
      obtain ⟨m, hm, rfl⟩ := List.mem_map.1 hx
      obtain ⟨m', hm', rfl⟩ := List.mem_map.1 hy
      have hsame : Schema.Same _ _ := ⟨hbuilt m hm, hbuilt m' hm', hxy⟩
      exact hsame.admits_iff v
    have hmembers : (∃ s ∈ members.map fun m => m.build n o.forPart, s.Admits c v)
        ↔ ∃ m ∈ members, m.Admits c v := by
      simp only [List.mem_map, exists_exists_and_eq_and]
      refine exists_congr fun m => and_congr_right fun hm => ?_
      rw [ih m hm (o := o.forPart) (hwell m hm)
        (fun name hname => hkeys name (hmem m hm name hname))
        fun name hname => h name (hmem m hm name hname), admitsAs_forPart_iff]
    rw [build, Schema.admits_union_iff rfl, AdmitsAs, admits_union_iff, Option.getD_some,
      buildAll_eq, hdistinct, hmembers]
    rfl
  | named name =>
    show (Assembly.wrap o (n.target name o)).Admits c v ↔ _
    rw [admits_wrap_iff, AdmitsAs, admits_named_iff, h name (by simp [names])]
  | raw w => cases hwell

end Descriptor

end DataShapes
