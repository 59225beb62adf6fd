import DataShapes.Proofs.Agreement.Checks
import DataShapes.Proofs.Agreement.Shapes
import DataShapes.Proofs.Assembly.Rules
import DataShapes.Proofs.Catalog.Generation
import Mathlib.Tactic.Ring

/-!
# Conformance and type signatures agree

The check of a value walks declarations; a type signature is read off the normal form of an
assembled schema.  Both say the same about every value.  The check follows names, and it ends
because a name that is followed without entering the value leads to a shape that was defined before:
the bound on how many names are followed is never reached.

Main definitions:
* `Catalog.rank`: the place of a name among the names of a catalog.

Main statements:
* `Catalog.Reachable.follow_settles`: following a name settles whether a value is one of the name;
* `Catalog.Reachable.conforms_settles`: so does the check of a descriptor;
* `Catalog.Reachable.conformance_agrees`: the check agrees with the type that is read off a schema.
-/

namespace DataShapes

namespace Scope

/-- What a name leads to in a catalog that has a shape under it. -/
theorem find_within_of_get? {c : Catalog} {name : String} {s : Shape}
    (h : c.shapes.get? name = some s) : (Scope.within c).find name = .ok (.shape s) := by
  rw [find, Catalog.get, h]
  rfl

/-- A name that leads to a finished shape is followed to the check of that shape. -/
theorem follow_of_find {scope : Scope} {name : String} {s : Shape}
    (h : scope.find name = .ok (.shape s)) (fuel : Nat) (v : Value) :
    scope.follow (fuel + 1) name v = s.admits (Descriptor.accepts (scope.follow fuel)) v := by
  rw [follow, h]
  rfl

/-- At least one name may be followed. -/
theorem exists_followLimit_eq (scope : Scope) (v : Value) : ∃ n, scope.followLimit v = n + 1 :=
  Nat.exists_eq_succ_of_ne_zero (Nat.mul_pos (Nat.succ_pos _) (Nat.succ_pos _)).ne'

/-- As many names may be followed for a value that is no less deep, in a scope that is no smaller. -/
theorem followLimit_le {scope scope' : Scope} (hsize : scope.size ≤ scope'.size) {v w : Value}
    (hdepth : w.depth ≤ v.depth) : scope.followLimit w ≤ scope'.followLimit v :=
  Nat.mul_le_mul (Nat.add_le_add_right hdepth 1) (Nat.add_le_add_right hsize 2)

/-- Fewer names may be followed for a less deep value. -/
theorem followLimit_lt {scope : Scope} {v w : Value} (h : w.depth < v.depth) :
    scope.followLimit w < scope.followLimit v :=
  Nat.mul_lt_mul_of_pos_right (Nat.add_lt_add_right h 1) (Nat.succ_pos _)

end Scope

namespace Catalog

variable {c : Catalog}

/-! ### Names lead back -/

/-- The place of a name among the names of the catalog. -/
def rank (c : Catalog) (name : String) : Nat := c.names.idxOf name

/-- Every name of a catalog has a rank below the number of its shapes. -/
theorem rank_lt_length {name : String} (h : name ∈ c.names) : c.rank name < c.shapes.length := by
  have hlt : c.names.idxOf name < c.names.length := List.idxOf_lt_length_iff.2 h
  have hlength : c.names.length = c.shapes.length := by simp [names, Table.keys]
  rwa [hlength] at hlt

/-- The name of a finished shape, or of the one that is being defined. -/
theorem mem_names_of_knows {a : Assembly} (ha : a.catalog = some c) {name : String}
    (h : a.knows name) : name = a.name ∨ name ∈ c.names := by
  rcases h with h | h
  · exact .inl h
  · right
    obtain ⟨t, ht⟩ := Option.isSome_iff_exists.1 h
    -- A name with a finished shape is not that of the shape under definition, so the catalog has
    -- it.
    unfold Assembly.shape? at ht
    split at ht
    · cases ht
    · rw [ha] at ht
      have hget : c.shapes.get? name = some t := ht
      rw [names, Table.mem_keys_iff, hget]
      rfl

/-- The names in the declarations of a finished shape are its own name and names of the catalog. -/
theorem names_finished {s : Shape} (hc : ∀ t ∈ c.definitions, ∀ name ∈ t.names, name ∈ c.names)
    (hs : c.FinishesWithin s) : ∀ name ∈ s.names, name = s.name ∨ name ∈ c.names := by
  cases hs with
  | type args t _ _ haccepted _ =>
    intro name hname
    have hname : name ∈ args.descriptor.names := by
      simpa [Shape.names, TypeArguments.shape, Shape.descriptor?, Shape.specs, Shape.additional]
        using hname
    have hknown := (Assembly.of_check _ haccepted).2 name hname
    exact mem_names_of_knows (a := args.assembly c) rfl hknown.1
  | object args t _ _ hparent haccepted _ =>
    intro name hname
    -- The name stands in a property or in the type of what other keys have.
    rcases List.mem_append.1 hname with hname | hname
    · obtain ⟨spec, hspec, hname⟩ := List.mem_flatMap.1 hname
      rcases Inheritance.mem_merge hspec with hspec | hspec
      · -- An inherited property has names that the extended shape has.
        cases hp : args.parent with
        | none => simp [hp] at hspec
        | some p =>
          simp only [hp, Option.map_some, Option.getD_some] at hspec
          exact .inr (hc p (hparent p hp).1 name (Shape.mem_names_of_spec hspec hname))
      · have hknown := (Assembly.of_check _ (haccepted.specs spec hspec)).2 name hname
        exact mem_names_of_knows (a := args.assembly c) rfl hknown.1
    · obtain ⟨e, he, hname⟩ := List.mem_flatMap.1 hname
      have hadditional := haccepted.additional e (Option.mem_toList.1 he)
      have hknown := (Assembly.of_check _ hadditional).2 name hname
      exact mem_names_of_knows (a := args.assembly c) rfl hknown.1

/-- The names in the declarations of shapes are names of the catalog. -/
theorem Reachable.names_within (hc : c.Reachable) :
    ∀ s ∈ c.definitions, ∀ name ∈ s.names, name ∈ c.names := by
  refine Reachable.induction (P := fun c => ∀ s ∈ c.definitions, ∀ name ∈ s.names, name ∈ c.names)
    ?_ ?_ hc
  · intro id s hs
    simp [definitions, Table.values] at hs
  · intro c t _ ih ht s hs name hname
    have hnew := Finishes.name_not_mem ht
    -- The names of the catalog only grow, so those that were within it stay within it.
    rw [definitions_add hnew] at hs
    rw [names_add hnew, List.mem_append, List.mem_singleton]
    rcases List.mem_append.1 hs with hs | hs
    · exact .inl (ih s hs name hname)
    · rw [List.mem_singleton.1 hs] at hname
      exact (names_finished ih ht name hname).symm

/-- A bare name in the declaration of a shape that does not contain itself bare belongs to a shape
    that was defined before. -/
theorem Reachable.rank_lt (hc : c.Reachable) {s : Shape} (hs : s ∈ c.definitions)
    (hself : s.name ∉ s.bareNames) {name : String} (hname : name ∈ s.bareNames) :
    c.rank name < c.rank s.name := by
  obtain ⟨before, after, hbefore, hfinish, -, hshapes⟩ := hc.origin hs
  have hnames : c.names = before.names ++ s.name :: after.keys := by
    simp [names, Table.keys, hshapes]
  have hmem : name ∈ before.names := by
    have hdeclared : name ∈ s.names := Shape.mem_names_of_mem_bareNames hname
    have hne : name ≠ s.name := fun heq => hself (heq ▸ hname)
    exact (names_finished hbefore.names_within hfinish name hdeclared).resolve_left hne
  have hnew : s.name ∉ before.names := Finishes.name_not_mem hfinish
  -- The name was taken when the shape was finished, so its place is in front of the shape's.
  have hlt : before.names.idxOf name < before.names.length := List.idxOf_lt_length_iff.2 hmem
  unfold rank
  rw [hnames, List.idxOf_append_of_mem hmem, List.idxOf_append_of_notMem hnew]
  omega

/-! ### The check ends -/

/-- What a name of the catalog is followed to. -/
theorem follow_name (hc : c.WellNamed) {s : Shape} (hs : s ∈ c.definitions) (fuel : Nat)
    (v : Value) :
    (Scope.within c).follow (fuel + 1) s.name v
      = s.admits (Descriptor.accepts ((Scope.within c).follow fuel)) v := by
  have hget : c.shapes.get? s.name = some s := hc.get?_eq_some_iff.2 ⟨hs, rfl⟩
  exact Scope.follow_of_find (Scope.find_within_of_get? hget) fuel v

/-- How many names may have to be followed one from the other behind a name: as many as there are
    steps back in the catalog, for each level of the value. -/
def need (c : Catalog) (name : String) (v : Value) : Nat :=
  v.depth * (c.shapes.length + 1) + c.rank name

/-- Below a value, one level less is left for any name at all. -/
theorem need_lt_of_depth_lt {name other : String} {v w : Value} (hname : name ∈ c.names)
    (h : w.depth < v.depth) : c.need name w < c.need other v := by
  have hlevel : (w.depth + 1) * (c.shapes.length + 1) ≤ v.depth * (c.shapes.length + 1) :=
    Nat.mul_le_mul_right _ h
  have hlast := rank_lt_length hname
  rw [Nat.succ_mul] at hlevel
  unfold need
  omega

/-- A check needs less fuel when it goes on with a shape of a lower rank. -/
theorem need_lt_of_rank_lt {name other : String} (h : c.rank name < c.rank other) (v : Value) :
    c.need name v < c.need other v := Nat.add_lt_add_left h _

/-- The limit on following names is beyond what the levels of the value and the ranks need. -/
theorem need_lt_followLimit {name : String} {v w : Value} (hname : name ∈ c.names)
    (h : w.depth ≤ v.depth) : c.need name w < (Scope.within c).followLimit v := by
  have hlast := rank_lt_length hname
  have hlevel : w.depth * (c.shapes.length + 1) ≤ v.depth * (c.shapes.length + 1) :=
    Nat.mul_le_mul_right _ h
  have hlimit : (Scope.within c).followLimit v
      = v.depth * (c.shapes.length + 1) + v.depth + c.shapes.length + 2 := by
    show (v.depth + 1) * (c.shapes.length + 2) = _
    ring
  unfold need
  omega

/-- Following a name settles whether a value is one of the name, when as many names may be followed
    as are needed. -/
theorem Reachable.follow_settles (hc : c.Reachable)
    (htitles : (c.definitions.map Shape.title).Nodup)
    (hguard : ∀ s ∈ c.definitions, s.name ∉ s.bareNames) {fuel : Nat} {name : String} {v : Value}
    (hname : name ∈ c.names)
    (hfuel : c.need name v < fuel) :
    ((Scope.within c).follow fuel name v).Settles (Inhabits c v (.named name)) := by
  have hnamed := hc.reached.wellNamed
  have hsettled := hc.settled htitles
  induction fuel generalizing name v with
  | zero => omega
  | succ fuel ih =>
    obtain ⟨s, hs, rfl⟩ : ∃ s ∈ c.definitions, s.name = name := by
      rw [hnamed.names_eq] at hname
      exact List.mem_map.1 hname
    have hwithin := hc.names_within s hs
    have hdeep : ∀ name ∈ s.names, ∀ w : Value, w.depth < v.depth →
        ((Scope.within c).follow fuel name w).Settles (Inhabits c w (.named name)) := by
      intro name hname w hw
      have hlt : c.need name w < c.need s.name v := need_lt_of_depth_lt (hwithin name hname) hw
      exact ih (hwithin name hname) (by omega)
    -- At the value itself, the names that are followed stand further back.
    have hbare : ∀ name ∈ s.bareNames,
        ((Scope.within c).follow fuel name v).Settles (Inhabits c v (.named name)) := by
      intro name hname
      have hlt : c.need name v < c.need s.name v :=
        need_lt_of_rank_lt (hc.rank_lt hs (hguard s hs) hname) v
      exact ih (hwithin name (Shape.mem_names_of_mem_bareNames hname)) (by omega)
    have hadmits : (s.admits (Descriptor.accepts ((Scope.within c).follow fuel)) v).Settles
        (s.Admits c v) := by
      refine Shape.admits_settles (hc.reached.distinctProperties s hs).specs (fun d hd => ?_)
        (fun spec hspec w hw => ?_) fun e he w hw => ?_
      · refine Descriptor.accepts_settles (fun name hname => hbare name ?_) fun name hname =>
          hdeep name (Shape.mem_names_of_descriptor hd hname)
        rw [Shape.bareNames, hd]
        exact hname
      · have hsub : ∀ name ∈ spec.descriptor.names, name ∈ s.names :=
          fun name hname => Shape.mem_names_of_spec hspec hname
        refine Descriptor.accepts_settles (fun name hname => ?_) fun name hname x hx => ?_
        · exact hdeep name (hsub name (Descriptor.mem_names_of_mem_bareNames hname)) w hw
        · exact hdeep name (hsub name hname) x (Nat.lt_trans hx hw)
      · have hsub : ∀ name ∈ e.1.names, name ∈ s.names :=
          fun name hname => Shape.mem_names_of_additional he hname
        refine Descriptor.accepts_settles (fun name hname => ?_) fun name hname x hx => ?_
        · exact hdeep name (hsub name (Descriptor.mem_names_of_mem_bareNames hname)) w hw
        · exact hdeep name (hsub name hname) x (Nat.lt_trans hx hw)
    obtain ⟨b, hb, hiff⟩ := hadmits
    refine ⟨b, (congrArg Noted.result (follow_name hnamed hs fuel v)).trans hb, ?_⟩
    rw [hiff, ← (hsettled.agrees hs).schema, hsettled.admits_schema_iff hs]

/-- The check of a value against a descriptor ends with the right answer. -/
theorem Reachable.conforms_settles (hc : c.Reachable)
    (htitles : (c.definitions.map Shape.title).Nodup)
    (hguard : ∀ s ∈ c.definitions, s.name ∉ s.bareNames) {d : Descriptor}
    (hnames : ∀ name ∈ d.names, name ∈ c.names) (v : Value) :
    (conforms (.within c) v d).Settles (d.Admits c v) := by
  have hfollow : ∀ name ∈ d.names, ∀ w : Value, w.depth ≤ v.depth →
      ((Scope.within c).follow ((Scope.within c).followLimit v) name w).Settles
        (Inhabits c w (.named name)) := fun name hname w hw =>
    hc.follow_settles htitles hguard (hnames name hname) (need_lt_followLimit (hnames name hname) hw)
  exact Descriptor.accepts_settles
    (fun name hname => hfollow name (Descriptor.mem_names_of_mem_bareNames hname) v (Nat.le_refl _))
    fun name hname w hw => hfollow name hname w (Nat.le_of_lt hw)

end Catalog

/-! ### Agreement -/

namespace Assembly

variable {a : Assembly} {property : String} {d : Descriptor}

/-- Without options there is nothing to check but that names lead to finished shapes. -/
theorem check_plain (hwell : d.WellFormed = true)
    (hnames : ∀ name ∈ d.names, (a.shape? name).isSome = true) :
    a.check property d {} = .ok () :=
  check_eq_ok_iff.2 ⟨rfl, hwell, fun name hname => ⟨.inr (hnames name hname), nofun⟩⟩

/-- The type that is read off an assembled schema has the values of the descriptor, and null where
    the options admit it. -/
theorem signature_of_assembled {c : Catalog} (hc : c.Reachable)
    (htitles : (c.definitions.map Shape.title).Nodup) (ha : a.catalog = some c)
    (hnames : ∀ name ∈ d.names, name ∈ c.names ∧ name ≠ a.name) {o : PropertyOptions}
    {owner : Option String} {s : Schema} {r : Registry}
    (h : (a.schemaOf property d o { owner := owner }).result = .ok (s, r)) :
    ∃ t, TypeExpr.ofNormalForm r s = .ok t ∧ ∀ v, Inhabits c v t ↔ d.AdmitsAs c o v := by
  rw [result_schemaOf _ _ _ _ rfl, Outcome.map_eq_ok_iff] at h
  obtain ⟨⟨⟩, hcheck, heq⟩ := h
  obtain ⟨rfl, rfl⟩ := Prod.mk.inj heq
  have hsettled := hc.settled htitles
  have hshape : ∀ name t, a.shape? name = some t → t ∈ c.definitions := fun _ _ ht =>
    mem_of_shape? ha ht
  have hcovers := covers_of_check (fun name t ht => hc.reached.covered t (hshape name t ht)) hcheck
    (Registry.holds_write { owner := owner } (a.writes d o))
  have hread : (d.build a.naming o).Each
      (({ owner := owner } : Registry).write (a.writes d o)).Covers :=
    hcovers.mono fun _ hn => hn.1
  have hkeys : (d.build a.naming o).Each Schema.DistinctKeys :=
    each_build (fun _ hs _ => hs.distinctKeys)
      (fun name t ht => (hc.reached.distinctProperties t (hshape name t ht)).schema) o
  -- Every name leads to a finished shape, so nothing is written about the shape of the assembly.
  have hexplains : c.Explains (a.writes d o) := by
    refine explains_writes (fun name hname hnone => ?_) (fun name t ht => ?_) o
    · have hfinished := ((a.of_check hcheck).2 name hname).1.resolve_left (hnames name hname).2
      rw [hnone] at hfinished
      cases hfinished
    · exact ⟨⟨t, hshape name t ht, rfl, rfl⟩, hc.explains t (hshape name t ht)⟩
  obtain ⟨t, ht⟩ := TypeExpr.ofNormalForm_total hread
  refine ⟨t, ht, fun v => ?_⟩
  have hmeans : c.Explains (({ owner := owner } : Registry).write (a.writes d o)).content :=
    hexplains.registry owner
  have hvalues : Inhabits c v t ↔ (d.build a.naming o).Admits c v :=
    TypeExpr.inhabits_ofNormalForm_iff hsettled.distinct hmeans hread hkeys ht
  rw [hvalues, hsettled.admits_build_iff ha (fun name hname heq => absurd heq (hnames name hname).2)
    hcheck]

end Assembly

namespace Catalog

/-- Conformance and type signatures agree.  In a reachable catalog whose shapes have distinct titles
    and in which no type shape contains itself outside every array and map, take a well-formed
    descriptor whose names are names of the catalog.  Assembled without options it gives a schema.
    Whatever the options, when it gives a schema, a type is read off the normal form of it, and for
    every value the check against the descriptor ends: the value inhabits the type exactly when it
    conforms, or is null and the options admit null.  So it is with the signature of each shape. -/
theorem Reachable.conformance_agrees {c : Catalog} (hc : c.Reachable)
    (htitles : (c.definitions.map Shape.title).Nodup)
    (hguard : ∀ s ∈ c.definitions, s.name ∉ s.bareNames) :
    (∀ (d : Descriptor) (a : Assembly) (property : String), d.WellFormed = true →
      a.catalog = some c → (∀ name ∈ d.names, name ∈ c.names ∧ name ≠ a.name) →
      (∃ x, (a.schemaOf property d {} {}).result = .ok x)
        ∧ ∀ (o : PropertyOptions) (owner : Option String) (s : Schema) (r : Registry),
          (a.schemaOf property d o { owner := owner }).result = .ok (s, r) →
          ∃ t, TypeExpr.ofNormalForm r s = .ok t
            ∧ ∀ v, ∃ b, (conforms (.within c) v d).result = .ok b
              ∧ (Inhabits c v t ↔ b = true ∨ (o.nullable = true ∧ v = .null)))
    ∧ ∀ s ∈ c.definitions, ∀ v, ∃ b, (conforms (.within c) v (.named s.name)).result = .ok b
      ∧ (Inhabits c v s.signature ↔ b = true) := by
  refine ⟨fun d a property hwell ha hnames => ⟨?_, fun o owner s r h => ?_⟩, fun s hs v => ?_⟩
  · -- Without options nothing is refused but names that lead nowhere.
    have hshapes : ∀ name ∈ d.names, (a.shape? name).isSome = true := by
      intro name hname
      obtain ⟨hmem, hne⟩ := hnames name hname
      rw [Assembly.shape?, if_neg hne, ha]
      exact (Table.mem_keys_iff _ _).1 hmem
    rw [Assembly.result_schemaOf _ _ _ _ rfl, Assembly.check_plain hwell hshapes]
    exact ⟨_, rfl⟩
  · obtain ⟨t, ht, hvalues⟩ := Assembly.signature_of_assembled hc htitles ha hnames h
    refine ⟨t, ht, fun v => ?_⟩
    obtain ⟨b, hb, hiff⟩ := hc.conforms_settles htitles hguard (fun name hname =>
      (hnames name hname).1) v
    refine ⟨b, hb, ?_⟩
    rw [hvalues, hiff, Descriptor.AdmitsAs]
    exact or_comm
  · -- A shape conforms to its own name as a descriptor does.
    have hsettled := hc.settled htitles
    have hname : s.name ∈ c.names := by
      rw [hc.reached.wellNamed.names_eq]
      exact List.mem_map_of_mem hs
    obtain ⟨b, hb, hiff⟩ := hc.conforms_settles htitles hguard (d := .named s.name)
      (fun name hmem => by rwa [List.mem_singleton.1 hmem]) v
    refine ⟨b, hb, ?_⟩
    rw [hiff, Descriptor.admits_named_iff, hsettled.distinct.inhabits_named_iff hs]

namespace Trees

/-- The record of a tree. -/
def record : TypeExpr :=
  .record (some "Tree")
    [.mk "key" (.primitive .string) true, .mk "children" (.sequence (.named "Tree")) true]
    .fixedRecord none

/-- The signature of trees refers to trees again. -/
theorem signature_tree : treeArguments.signature (({} : Catalog).add key) = .ok record := by
  refine (TypeExpr.ofObject_eq_ok_iff (by simp [treeArguments])).2 ⟨_, _,
    TypeExpr.fieldsOf_eq_ok_iff.2 (.cons ⟨_, ?_, rfl⟩ (.cons ⟨_, ?_, rfl⟩ .nil)), rfl, rfl⟩
  · exact TypeExpr.ofSchema_scalar rfl
  · exact (TypeExpr.ofSchema_array_eq_ok_iff rfl).2
      ⟨_, _, rfl, TypeExpr.ofSchema_reference_eq_ok_iff.2 ⟨"Tree", rfl, rfl⟩, rfl⟩

/-- The shape of trees. -/
def tree : Shape := treeArguments.shape (({} : Catalog).add key) record

/-- Trees may hold trees, since a shape may refer to itself. -/
theorem accepted_trees : treeArguments.Accepted (({} : Catalog).add key) where
  names := by decide
  record := rfl
  specs := by
    intro s hs
    rcases List.mem_cons.1 hs with rfl | hs
    · rfl
    · rw [List.mem_singleton.1 hs]
      rfl
  additional := by
    intro e he
    cases he
  parent := by
    intro p hp
    cases hp

theorem after_trees : ({} : Catalog).after [.type keys, .object trees]
    = (({} : Catalog).add key).add tree := by
  have hkeys : ({} : Catalog).step (fun _ => none) (.type keys) = ({} : Catalog).add key := by
    rw [step, define, defineType_keys]
  have htrees : ((({} : Catalog).add key).defineObject (fun _ => none) trees).result
      = .ok ((({} : Catalog).add key).add tree, tree) :=
    defineObject_eq_ok_iff.2
      ⟨treeArguments, record, rfl, accepted_trees, signature_tree, rfl, rfl⟩
  rw [after_cons, after_cons, after_nil, hkeys, step, define, htrees]

end Trees

/-- In the catalog of keys and trees, maps of trees conform when they inhabit the type of maps of
    trees. -/
theorem Reachable.conformance_agrees_trees :
    ∃ c : Catalog, c = (({} : Catalog).add Trees.key).add Trees.tree
      ∧ (∃ t s r, ((⟨"Forest", "Forest", some c⟩ : Assembly).schemaOf "forest"
            (.map (.named "Tree")) {} {}).result = .ok (s, r)
          ∧ TypeExpr.ofNormalForm r s = .ok t
          ∧ ∀ v, ∃ b, (conforms (.within c) v (.map (.named "Tree"))).result = .ok b
            ∧ (Inhabits c v t ↔ b = true))
      ∧ ∀ v, ∃ b, (conforms (.within c) v (.named "Tree")).result = .ok b
        ∧ (Inhabits c v Trees.record ↔ b = true) := by
  have hreachable : ((({} : Catalog).add Trees.key).add Trees.tree).Reachable :=
    ⟨"", _, Trees.after_trees.symm⟩
  -- Trees contain themselves below a map alone, so no check goes round.
  have hguard : ∀ s ∈ ((({} : Catalog).add Trees.key).add Trees.tree).definitions,
      s.name ∉ s.bareNames := by
    intro s hs
    rcases List.mem_cons.1 hs with rfl | hs
    · exact List.not_mem_nil
    · rw [List.mem_singleton.1 hs]
      exact List.not_mem_nil
  obtain ⟨hdescriptors, hshapes⟩ := Reachable.conformance_agrees hreachable (by decide) hguard
  refine ⟨_, rfl, ?_, hshapes Trees.tree (.tail _ (.head _))⟩
  obtain ⟨⟨⟨s, r⟩, hschema⟩, htype⟩ := hdescriptors (.map (.named "Tree"))
    ⟨"Forest", "Forest", _⟩ "forest" rfl rfl (by decide)
  obtain ⟨t, ht, hvalues⟩ := htype {} none s r hschema
  refine ⟨t, s, r, hschema, ht, fun v => ?_⟩
  obtain ⟨b, hb, hiff⟩ := hvalues v
  exact ⟨b, hb, by simpa using hiff⟩

end Catalog

end DataShapes
