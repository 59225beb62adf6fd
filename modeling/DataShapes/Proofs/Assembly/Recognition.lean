import DataShapes.Proofs.Agreement.Congruence
import DataShapes.Proofs.Catalog.Stages
import DataShapes.Proofs.TypeExpr.Reading

/-!
# Assembly recognizes well-formed descriptors

The assembly of a schema goes by the form of descriptors, and stops when it comes across something
that is none.  It never does when all parts of the descriptors it starts from are descriptors: what
it goes on to are their parts, and the schemas that names stand for are finished.  No other step of a
definition ends like this.

Main definitions:
* `Outcome.Recognizes`: a computation does not end with something that is no descriptor.

Main statements:
* `Assembly.recognizes_schemaOf`, `Assembly.recognizes_objectSchema`: the assembly of well-formed
  descriptors recognizes all their parts;
* `Catalog.recognizes_defineType`, `Catalog.recognizes_defineObject`: so does a definition that reads
  well-formed descriptors.
-/

namespace DataShapes

/-! ### Computations that recognize descriptors -/

/-- The problem is that something is no descriptor. -/
def Problem.isUnknownDescriptor : Problem → Bool
  | unknownDescriptor .. => true
  | _ => false

namespace Outcome

variable {α β : Type} {x : Except Problem α}

/-- The computation does not end with something that is no descriptor. -/
def Recognizes (x : Except Problem α) : Prop :=
  ∀ d property, x ≠ .error (.unknownDescriptor d property)

/-- A result is no complaint about a descriptor. -/
theorem Recognizes.ok (a : α) : Recognizes (.ok a : Except Problem α) := by
  intro d property h
  cases h

/-- Any other problem will do. -/
theorem Recognizes.error {p : Problem} (h : p.isUnknownDescriptor = false) :
    Recognizes (.error p : Except Problem α) := by
  rintro d property heq
  cases heq
  cases h

/-- A sequence recognizes descriptors when both of its parts do. -/
theorem Recognizes.bind {f : α → Except Problem β} (hx : Recognizes x)
    (hf : ∀ a, x = .ok a → Recognizes (f a)) : Recognizes (x.bind f) := by
  intro d property h
  cases x with
  | error p => exact hx d property (congrArg Except.error (Except.error.inj h))
  | ok a => exact hf a rfl d property h

theorem Recognizes.map {f : α → β} (hx : Recognizes x) : Recognizes (x.map f) := by
  intro d property h
  cases x with
  | error p => exact hx d property (congrArg Except.error (Except.error.inj h))
  | ok a => cases h

/-- So does a row of computations when each of them does. -/
theorem Recognizes.mapM {f : α → Except Problem β} {xs : List α}
    (h : ∀ x ∈ xs, Recognizes (f x)) : Recognizes (xs.mapM f) := by
  induction xs with
  | nil => exact .ok []
  | cons x xs ih =>
    rw [List.mapM_cons]
    apply Recognizes.bind (h x List.mem_cons_self)
    intro y _
    apply Recognizes.bind (ih fun z hz => h z (List.mem_cons_of_mem _ hz))
    exact fun ys _ => .ok (y :: ys)

theorem Recognizes.foldlM {f : β → α → Except Problem β} {xs : List α}
    (h : ∀ b x, Recognizes (f b x)) (b : β) : Recognizes (xs.foldlM f b) := by
  induction xs generalizing b with
  | nil => exact .ok b
  | cons x xs ih =>
    rw [List.foldlM_cons]
    exact (h b x).bind fun c _ => ih c

end Outcome

open Outcome

/-! ### Reading arguments -/

theorem Catalog.recognizes_newName (c : Catalog) (v : Value) : Recognizes (c.newName v) := by
  unfold newName
  split
  · split
    · exact .error rfl
    · split
      · exact .error rfl
      · exact .ok _
  · exact .error rfl

mutual

/-- Reading a written type never complains about a descriptor; unknown values are reported as such. -/
theorem Shorthand.recognizes_read (v : Value) : Recognizes (read v) := by
  unfold read
  split
  · exact .ok _
  · split
    · exact .ok _
    · exact .error rfl
  · -- A container reads what is inside of it.
    exact recognizes_readTuple _
  · exact .error rfl
  · exact Recognizes.bind (recognizes_read _) fun _ _ =>
      Recognizes.bind (recognizes_readAll _) fun _ _ => .ok _
  · exact .ok _
  · exact .error rfl

theorem Shorthand.recognizes_readTuple (items : List Value) : Recognizes (readTuple items) := by
  unfold readTuple
  split
  · split
    · exact Recognizes.bind (recognizes_read _) fun _ _ => .ok _
    · split
      · exact Recognizes.bind (recognizes_read _) fun _ _ => .ok _
      · exact .error rfl
  · exact .error rfl

theorem Shorthand.recognizes_readAll (vs : List Value) : Recognizes (readAll vs) := by
  unfold readAll
  split
  · exact .ok _
  · exact Recognizes.bind (recognizes_read _) fun _ _ =>
      Recognizes.bind (recognizes_readAll _) fun _ _ => .ok _

end

namespace PropertyOptions

/-- What is no row of values is reported as such. -/
theorem recognizes_items (v : Value) : Recognizes (items v) := by
  cases v <;> first | exact .ok _ | exact .error rfl

theorem recognizes_set (o : PropertyOptions) (name : String) (v : Value) :
    Recognizes (o.set name v) := by
  unfold set
  split
  case h_6 =>
    split
    · exact .ok _
    · exact Recognizes.bind (recognizes_items _) fun _ _ => .ok _
  all_goals first | exact .ok _ | exact .error rfl

theorem recognizes_ofEntries (entries : List (Value × Value)) : Recognizes (ofEntries entries) := by
  unfold ofEntries
  split
  · exact Recognizes.foldlM (fun o (e : Value × Value) => recognizes_set o e.1.text e.2) _
  · exact .error rfl

theorem recognizes_ofValue (v : Value) : Recognizes (ofValue v) := by
  unfold ofValue
  split
  · exact .ok _
  · exact recognizes_ofEntries _
  · refine Recognizes.bind (recognizes_items _) fun _ _ => ?_
    split <;> first | exact .ok _ | exact .error rfl

end PropertyOptions

namespace ObjectOptions

theorem recognizes_set (o : ObjectOptions) (name : String) (v : Value) :
    Recognizes (o.set name v) := by
  unfold set
  split
  case h_4 =>
    refine Recognizes.bind ?_ fun _ _ => .ok _
    unfold Representation.ofValue
    split <;> first | exact .ok _ | exact .error rfl
  all_goals first | exact .ok _ | exact .error rfl

theorem recognizes_ofEntries (entries : List (Value × Value)) : Recognizes (ofEntries entries) := by
  unfold ofEntries
  split
  · exact Recognizes.foldlM (fun o (e : Value × Value) => recognizes_set o e.1.text e.2) _
  · exact .error rfl

end ObjectOptions

/-- Reading a declaration never complains about a descriptor. -/
theorem PropertySpec.recognizes_ofDeclaration (d : Declaration) : Recognizes (ofDeclaration d) := by
  unfold ofDeclaration
  split
  · exact Recognizes.bind (Shorthand.recognizes_read _) fun _ _ => .ok _
  · exact Recognizes.bind (Shorthand.recognizes_read _) fun _ _ => .ok _
  · exact Recognizes.bind (Shorthand.recognizes_read _) fun _ _ =>
      Recognizes.bind (PropertyOptions.recognizes_ofValue _) fun _ _ => .ok _
  · exact .error rfl

/-- Nor does reading the type for other keys. -/
theorem recognizes_additionalOfValue (v : Value) : Recognizes (additionalOfValue v) := by
  unfold additionalOfValue
  split
  · exact .ok _
  · exact Recognizes.bind (Shorthand.recognizes_read _) fun _ _ => .ok _
  · exact Recognizes.bind (Shorthand.recognizes_read _) fun _ _ =>
      Recognizes.bind (PropertyOptions.recognizes_ofEntries _) fun _ _ => .ok _
  · exact Recognizes.bind (Shorthand.recognizes_read _) fun _ _ => .ok _

theorem Catalog.recognizes_get (c : Catalog) (name : String) : Recognizes (c.get name) := by
  unfold get
  split <;> first | exact .ok _ | exact .error rfl

/-- Nor does finding the shape that is extended. -/
theorem Catalog.recognizes_extended (c : Catalog) (elsewhere : ShapeHandle → Option Shape)
    (name : String) (base : Value) : Recognizes (c.extended elsewhere name base) := by
  -- Whatever is found, it may still turn out to be no object.
  have hobject : ∀ p : Shape, Recognizes (if p.isObject = true then (.ok (some p) : Except Problem _)
      else .error (.extendsType name p.name)) := by
    intro p
    split <;> first | exact .ok _ | exact .error rfl
  unfold extended
  split
  · exact .ok none
  · rename_i other
    dsimp only
    split
    · exact .error rfl
    · exact (c.recognizes_get other).bind fun p _ => hobject p
  · split
    · exact Recognizes.bind (.ok _) fun p _ => hobject p
    · exact .error rfl
  · exact .error rfl

/-! ### Checks -/

/-- Recognizing descriptors is kept by all the ways in which checks are put together. -/
theorem Noted.composes_recognizes :
    Noted.Composes fun _ (x : Noted _) _ => Recognizes x.result where
  succeed h := by
    rw [h]
    exact .ok _
  bind h hf := by
    rw [Noted.result_bind]
    exact h.bind hf

theorem Scope.recognizes_find (scope : Scope) (name : String) : Recognizes (scope.find name) := by
  unfold find
  split
  · exact .ok _
  · exact .ok _
  · exact Recognizes.bind (Catalog.recognizes_get _ _) fun _ _ => .ok _
  · split
    · exact .ok _
    · split <;> first | exact .ok _ | exact .error rfl

/-- Following names finds a shape or fails, and so do the checks on the way. -/
theorem Scope.recognizes_follow (scope : Scope) (fuel : Nat) (name : String) (v : Value) :
    Recognizes (scope.follow fuel name v).result := by
  -- Each name that is followed takes one step of fuel; without fuel the problem is another one.
  induction fuel generalizing name v with
  | zero => exact .error rfl
  | succ fuel ih =>
    rw [follow, Noted.result_bind, Noted.result_liftM]
    refine (recognizes_find scope name).bind fun t _ => ?_
    cases t with
    | nothing => exact .ok _
    | unfinished => exact .ok _
    | shape s =>
      exact Shape.admits_accepts_of_composes
        (P := fun _ x => Recognizes x.result) Noted.composes_recognizes fun name _ w _ => ih name w

/-- A value that is checked against no descriptor just does not conform. -/
theorem recognizes_conforms (scope : Scope) (v : Value) (d : Descriptor) :
    Recognizes (conforms scope v d).result :=
  Descriptor.accepts_of_composes (P := fun _ x => Recognizes x.result) Noted.composes_recognizes
    fun name _ w _ => scope.recognizes_follow _ name w

theorem recognizes_checkConstraints (name : String) (d : Descriptor) (o : PropertyOptions) :
    Recognizes (checkConstraints name d o) := by
  unfold checkConstraints
  split
  · split
    · exact .error rfl
    · split <;> first | exact .ok _ | exact .error rfl
  · split
    · exact .error rfl
    · split <;> first | exact .ok _ | exact .error rfl

theorem recognizes_checkDistinctNames (title : String) (specs : List PropertySpec) :
    Recognizes (checkDistinctNames title specs) := by
  have hafter : ∀ seen : List String, Recognizes (checkNamesAfter title seen specs) := by
    induction specs with
    | nil => exact fun _ => .ok ()
    | cons s specs ih =>
      intro seen
      unfold checkNamesAfter
      split
      · exact .error rfl
      · exact ih (s.name :: seen)
  exact hafter []

theorem recognizes_checkRecord (title : String) (specs : List PropertySpec)
    (additional : Option (Descriptor × PropertyOptions)) (options : ObjectOptions) :
    Recognizes (checkRecord title specs additional options) := by
  unfold checkRecord
  split
  · exact .ok ()
  · split
    · exact .error rfl
    · split <;> first | exact .ok _ | exact .error rfl

/-- The rules of properties complain about options, never about the descriptor. -/
theorem recognizes_checkProperty (scope : Scope) (name : String) (d : Descriptor)
    (o : PropertyOptions) : Recognizes (checkProperty scope name d o).result := by
  rw [checkProperty, Noted.result_bind, Noted.result_liftM]
  refine (recognizes_checkConstraints name d o).bind fun _ _ => ?_
  unfold checkDefault
  split
  · exact .ok _
  · rw [Noted.result_bind]
    refine (recognizes_conforms scope _ d).bind fun b _ => ?_
    cases b <;> first | exact .ok _ | exact .error rfl

/-! ### Assembly -/

namespace Assembly

variable (a : Assembly)

/-- The checks of a well-formed descriptor recognize all its parts. -/
theorem recognizes_check {property : String} {d : Descriptor} {o : PropertyOptions}
    (h : d.WellFormed = true) : Recognizes (a.check property d o) := by
  induction d using Descriptor.induction_parts generalizing o with
  | scalar kind => exact recognizes_checkProperty a.scope property _ o
  | array item ih =>
    rw [check]
    exact (recognizes_checkProperty a.scope property _ o).bind fun _ _ => ih h
  | map value ih =>
    rw [check]
    exact (recognizes_checkProperty a.scope property _ o).bind fun _ _ => ih h
  | union members ih =>
    rw [Descriptor.WellFormed, Descriptor.allWellFormed_iff] at h
    rw [check]
    refine (recognizes_checkProperty a.scope property _ o).bind fun _ _ => ?_
    -- The members are checked one after the other.
    have hall : ∀ ds : List Descriptor, (∀ d ∈ ds, d ∈ members) →
        Recognizes (a.checkAll property ds o.forPart) := by
      intro ds
      induction ds with
      | nil => exact fun _ => .ok ()
      | cons d ds ihds =>
        intro hds
        have hd : d ∈ members := hds d List.mem_cons_self
        rw [checkAll]
        exact Recognizes.bind (ih d hd (h d hd)) fun _ _ =>
          ihds fun e he => hds e (List.mem_cons_of_mem _ he)
    exact hall members fun _ hd => hd
  | named name =>
    rw [check]
    refine (recognizes_checkProperty a.scope property _ o).bind fun _ _ => ?_
    refine (a.scope.recognizes_find name).bind fun t _ => ?_
    cases t with
    | shape s => exact .ok ()
    | nothing | unfinished =>
      dsimp only
      split <;> first | exact .ok _ | exact .error rfl
  | raw v => cases h

/-- The assembly of a well-formed descriptor recognizes all its parts. -/
theorem recognizes_schemaOf {property : String} {d : Descriptor} {o : PropertyOptions} {r : Registry}
    (h : d.WellFormed = true) (hr : r.isSealed = false) :
    Recognizes (a.schemaOf property d o r).result := by
  rw [result_schemaOf _ _ _ _ hr]
  exact (a.recognizes_check h).map

/-- The schemas of properties are built without a complaint when their descriptors are well formed. -/
theorem recognizes_propertySchemas {specs : List PropertySpec} {r : Registry}
    (h : ∀ s ∈ specs, s.descriptor.WellFormed = true) (hr : r.isSealed = false) :
    Recognizes (a.propertySchemas specs r).result := by
  induction specs generalizing r with
  | nil => exact .ok _
  | cons s specs ih =>
    rw [propertySchemas, Noted.result_bind]
    refine (a.recognizes_schemaOf (h s List.mem_cons_self) hr).bind fun x hx => ?_
    -- The registry is as open as it was.
    rw [result_schemaOf _ _ _ _ hr] at hx
    obtain ⟨⟨⟩, -, rfl⟩ := map_eq_ok_iff.1 hx
    rw [Noted.result_bind]
    refine (ih (fun t ht => h t (List.mem_cons_of_mem _ ht)) ?_).bind fun _ _ => .ok _
    simpa using hr

/-- So is the schema for other keys. -/
theorem recognizes_additionalSchema {additional : Option (Descriptor × PropertyOptions)}
    {r : Registry} (h : ∀ e, additional = some e → e.1.WellFormed = true)
    (hr : r.isSealed = false) : Recognizes (a.additionalSchema additional r).result := by
  cases additional with
  | none => exact .ok _
  | some e =>
    rw [additionalSchema, Noted.result_bind]
    exact (a.recognizes_schemaOf (h e rfl) hr).bind fun _ _ => .ok _

theorem recognizes_extend (child : Schema) (parent : Option Schema) :
    Recognizes (Inheritance.extend child parent).result := by
  unfold Inheritance.extend
  split
  · exact .error rfl
  · split
    · exact .error rfl
    · rw [Noted.result_bind, Inheritance.result_noteOverrides]
      exact .ok _

/-- Taking over an extended shape assembles no descriptor. -/
theorem recognizes_inheritFrom (name : String) (parent : Option Shape) (s : Schema) {r : Registry}
    (hr : r.isSealed = false) : Recognizes (inheritFrom name parent s r).result := by
  cases parent with
  | none => exact .ok _
  | some p =>
    rw [inheritFrom, Noted.result_bind, Noted.result_bind]
    refine (recognizes_extend s (some p.schema)).bind fun t _ => ?_
    rw [Noted.result_bind, Registry.result_merge hr]
    exact .ok _

/-- The assembly of an object whose types are well formed recognizes all their parts. -/
theorem recognizes_objectSchema {name : String} {specs : List PropertySpec}
    {additional : Option (Descriptor × PropertyOptions)} {options : ObjectOptions}
    {parent : Option Shape} {r : Registry} (hspecs : ∀ s ∈ specs, s.descriptor.WellFormed = true)
    (hadditional : ∀ e, additional = some e → e.1.WellFormed = true) (hr : r.isSealed = false) :
    Recognizes (a.objectSchema name specs additional options parent r).result := by
  have hown : ∀ s ∈ specs.map (·.withDefaults options), s.descriptor.WellFormed = true := by
    intro s hs
    obtain ⟨t, ht, rfl⟩ := List.mem_map.1 hs
    exact hspecs t ht
  unfold objectSchema
  simp only [Noted.result_bind, Noted.result_liftM, Inheritance.result_mergeSpecs]
  refine (recognizes_checkDistinctNames _ _).bind fun _ _ => Recognizes.bind (.ok _) fun _ _ => ?_
  refine (recognizes_checkRecord _ _ _ _).bind fun _ _ => ?_
  refine (a.recognizes_propertySchemas hown hr).bind fun x hx => ?_
  -- The registry stays open behind the properties, so that no step refuses to write.
  obtain ⟨-, -, hx⟩ := (a.propertySchemas_eq_ok_iff hr).1 hx
  have hx' : x.2.isSealed = false := by rw [hx, Registry.isSealed_write, hr]
  refine (a.recognizes_additionalSchema hadditional hx').bind fun y hy => ?_
  obtain ⟨-, -, hy⟩ := (a.additionalSchema_eq_ok_iff hx').1 hy
  exact recognizes_inheritFrom _ _ _ (by rw [hy, Registry.isSealed_write, hx'])

end Assembly

/-! ### Signatures -/

namespace TypeExpr

variable (r : Registry)

/-- Reading a signature off a schema comes across no descriptors. -/
theorem recognizes_ofSchema (s : Schema) : Recognizes (ofSchema r s) := by
  induction s using Schema.induction_read with
  | h s ih =>
    cases s with
    | reference path =>
      rw [ofSchema]
      split <;> first | exact .ok _ | exact .error rfl
    | node f ps i a ms =>
      rw [ofSchema.eq_def]
      dsimp only
      split
      case h_6 hkind =>
        cases i with
        | none => exact .error rfl
        | some i => exact Recognizes.bind (ih i (by simp [Schema.readNext, hkind])) fun _ _ => .ok _
      case h_7 hkind =>
        refine Recognizes.bind (Recognizes.mapM fun m _ => ?_) fun _ _ => .ok _
        exact ih m.1 (by simpa [Schema.readNext, hkind] using m.2)
      case h_8 hkind =>
        refine Recognizes.bind (Recognizes.mapM fun p _ => ?_) fun fields _ => ?_
        · -- The normal form of a property is read next.
          have hnext : p.1.2.normalize ∈ (Schema.node f ps i a ms).readNext := by
            simp only [Schema.readNext, hkind]
            apply List.mem_map_of_mem
            exact List.mem_append_left _ (List.mem_map_of_mem p.2)
          exact Recognizes.bind (ih _ hnext) fun _ _ => .ok _
        · cases a with
          | none => exact .ok _
          | some value =>
            have hnext : value.normalize ∈ (Schema.node f ps i (some value) ms).readNext := by
              simp only [Schema.readNext, hkind]
              apply List.mem_map_of_mem
              simp
            exact Recognizes.bind (ih _ hnext) fun _ _ => .ok _
      all_goals exact .ok _

/-- Types are read off schemas, where there are no descriptors any more. -/
theorem recognizes_ofNormalForm (s : Schema) : Recognizes (ofNormalForm r s) :=
  recognizes_ofSchema r s.normalize

theorem recognizes_ofObject (s : Schema) (options : ObjectOptions) (name : Option String)
    (parent : Option Inherited) : Recognizes (ofObject r s options name parent) := by
  have hfields : Recognizes (fieldsOf r s parent) := by
    refine Recognizes.mapM fun p _ => ?_
    split
    · exact .ok _
    · exact (recognizes_ofNormalForm r p.2).bind fun _ _ => .ok _
  have hextra : Recognizes (extraOf r s) := by
    unfold extraOf
    split
    · exact Recognizes.bind (recognizes_ofNormalForm r _) fun _ _ => .ok _
    · exact .ok _
  exact hfields.bind fun _ _ => hextra.bind fun _ _ => .ok _

end TypeExpr

/-! ### Definitions -/

namespace Catalog

/-- A definition of a type shape recognizes what it reads, when that is well formed. -/
theorem recognizes_defineType {c : Catalog} {d : TypeDeclaration}
    (h : ∀ descriptor, Shorthand.read d.type = .ok descriptor → descriptor.WellFormed = true) :
    Recognizes (c.defineType d).result := by
  unfold defineType
  simp only [Noted.result_bind, Noted.result_liftM, Noted.result_onDefinitionProblem]
  refine (c.recognizes_newName d.name).bind fun name _ => ?_
  refine (Shorthand.recognizes_read d.type).bind fun descriptor hread => ?_
  refine (PropertyOptions.recognizes_ofEntries d.options).bind fun options _ => ?_
  refine (Assembly.recognizes_schemaOf _ (h descriptor hread) rfl).bind fun x _ => ?_
  exact (TypeExpr.recognizes_ofNormalForm _ _).bind fun _ _ => .ok _

/-- A definition of an object shape recognizes what it reads, when that is well formed. -/
theorem recognizes_defineObject {c : Catalog} {elsewhere : ShapeHandle → Option Shape}
    {d : ObjectDeclaration}
    (hspecs : ∀ declaration ∈ d.properties, ∀ spec, PropertySpec.ofDeclaration declaration = .ok spec →
      spec.descriptor.WellFormed = true)
    (hadditional : ∀ e, additionalOfValue d.additional = .ok (some e) → e.1.WellFormed = true) :
    Recognizes (c.defineObject elsewhere d).result := by
  unfold defineObject
  simp only [Noted.result_bind, Noted.result_liftM, Noted.result_onDefinitionProblem]
  refine (c.recognizes_newName d.name).bind fun name _ => ?_
  refine (ObjectOptions.recognizes_ofEntries d.options).bind fun options _ => ?_
  refine (Recognizes.mapM fun p _ => PropertySpec.recognizes_ofDeclaration p).bind fun specs hread => ?_
  refine (recognizes_additionalOfValue d.additional).bind fun additional hread' => ?_
  refine (c.recognizes_extended elsewhere name options.base).bind fun parent _ => ?_
  have hspecs' : ∀ spec ∈ specs, spec.descriptor.WellFormed = true := by
    intro spec hspec
    obtain ⟨declaration, hmem, heq⟩ := mem_of_forall₂ (mapM_eq_ok_iff.1 hread) hspec
    exact hspecs declaration hmem spec heq
  refine (Assembly.recognizes_objectSchema _ hspecs' (fun e he => hadditional e (he ▸ hread')) rfl).bind
    fun x _ => ?_
  -- What is left is to read the signature off, after notices about what is declared again.
  cases parent with
  | none =>
    simp only [Noted.result_bind, Noted.result_pure, Noted.result_liftM]
    exact Recognizes.bind (.ok _) fun _ _ =>
      (TypeExpr.recognizes_ofObject _ _ _ _ _).bind fun _ _ => .ok _
  | some p =>
    simp only [Noted.result_bind, Inheritance.result_mergeSpecs, Noted.result_liftM]
    exact Recognizes.bind (.ok _) fun _ _ =>
      (TypeExpr.recognizes_ofObject _ _ _ _ _).bind fun _ _ => .ok _

end Catalog

end DataShapes
