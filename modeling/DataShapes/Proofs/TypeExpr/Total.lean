import DataShapes.Proofs.Registry.Covering
import DataShapes.Proofs.TypeExpr.Parts
import DataShapes.Proofs.TypeExpr.Reading

/-!
# Reading a covered schema

When the registry covers every node of a schema, the type signature can be read off the schema, and
the names in it are the ones that the registry has.

Main definitions:
* `TypeExpr.ReadOff`: what is read off each kind of node;
* `TypeExpr.Labelled`: the name that an expression carries.

Main statements:
* `TypeExpr.ofNormalForm_total`: a type signature can be read off a covered schema;
* `TypeExpr.each_ofSchema`: a property of all parts of what is read, proved along the reading;
* `TypeExpr.ofNormalForm_labelled`: the names in it.
-/

namespace DataShapes

namespace TypeExpr

variable {r : Registry} {s : Schema} {t : TypeExpr}

/-! ### Success -/

/-- The schemas that reading goes on with are covered as well. -/
theorem each_readNext {Q : Schema → Prop} (hQ : Schema.NormalStable Q) (h : s.Each Q) :
    ∀ m ∈ s.readNext, m.Each Q := by
  intro m hm
  cases s with
  | reference path => simp [Schema.readNext] at hm
  | node f ps i a ms =>
    have hchild : ∀ c ∈ (Schema.node f ps i a ms).children, c.Each Q := fun c hc => h.child hc
    simp only [Schema.children, List.mem_append] at hchild
    -- One case for each way in which a node is read.
    rcases f.kind.cases_read with ⟨k, hk⟩ | hk | hk | hk | hk
    · cases hkind : f.kind <;> simp_all [Schema.readNext, SchemaKind.scalar?]
    · simp [Schema.readNext, hk] at hm
    · simp only [Schema.readNext, hk] at hm
      exact hchild m (.inl (.inl (.inl hm)))
    · simp only [Schema.readNext, hk] at hm
      exact hchild m (.inl (.inr hm))
    · simp only [Schema.readNext, hk] at hm
      obtain ⟨c, hc, rfl⟩ := List.mem_map.1 hm
      refine Schema.Each.normalize hQ (hchild c ?_)
      rcases List.mem_append.1 hc with hc | hc
      · exact .inr hc
      · exact .inl (.inl (.inr hc))

/-- A type is read off every schema whose references the registry covers. -/
theorem ofSchema_total (h : s.Each r.Covers) : ∃ t, ofSchema r s = .ok t := by
  induction s using Schema.induction_read with
  | h s ih =>
    have hnext : ∀ m ∈ s.readNext, ∃ t, ofSchema r m = .ok t := fun m hm =>
      ih m hm (each_readNext r.normalStable_covers h m hm)
    -- The order of reading is that of the induction, so what is read next has types already.
    cases s with
    | reference path =>
      obtain ⟨unit, hunit⟩ := Option.isSome_iff_exists.1 h.self
      exact ⟨_, ofSchema_reference_eq_ok_iff.2 ⟨unit, hunit, rfl⟩⟩
    | node f ps i a ms =>
      rcases f.kind.cases_read with ⟨k, hk⟩ | hk | hk | hk | hk
      · exact ⟨_, ofSchema_scalar hk⟩
      · exact ⟨_, ofSchema_null hk⟩
      · obtain ⟨item, rfl⟩ := Option.isSome_iff_exists.1 (h.self.1 hk)
        obtain ⟨u, hu⟩ := hnext item (by simp [Schema.readNext, hk])
        exact ⟨_, (ofSchema_array_eq_ok_iff hk).2 ⟨item, u, rfl, hu, rfl⟩⟩
      · simp only [Schema.readNext, hk] at hnext
        obtain ⟨ts, hts⟩ := Outcome.exists_forall₂ hnext
        exact ⟨_, (ofSchema_union_eq_ok_iff hk).2 ⟨ts, hts, rfl⟩⟩
      · simp only [Schema.readNext, hk, List.forall_mem_map, List.forall_mem_append] at hnext
        obtain ⟨hps, ha⟩ := hnext
        have hfield : ∀ p ∈ ps.getD [], ∃ field, ∃ u, ofNormalForm r p.2 = .ok u
            ∧ field = FieldType.mk p.1 u ((f.required.getD []).contains p.1) := by
          intro p hp
          obtain ⟨u, hu⟩ := hps p hp
          exact ⟨_, u, hu, rfl⟩
        obtain ⟨fields, hfields⟩ := Outcome.exists_forall₂ hfield
        have hother : ∀ value, a = some value → ∃ u, ofNormalForm r value = .ok u :=
          fun value hvalue => ha value (Option.mem_toList.2 hvalue)
        obtain ⟨extra, hextra⟩ := exists_extraOf (s := .node f ps i a ms) hother
        exact ⟨_, (ofSchema_object_eq_ok_iff hk).2 ⟨fields, extra, hfields, hextra, rfl⟩⟩

/-- A type signature can be read off a covered schema. -/
theorem ofNormalForm_total (h : s.Each r.Covers) : ∃ t, ofNormalForm r s = .ok t :=
  ofSchema_total (h.normalize r.normalStable_covers)

/-! ### Kind by kind -/

/-- An object is read as a mapping when its node is a map, and as a record otherwise. -/
theorem ofObjectParts_cases {R : String × Schema → FieldType → Prop} {f : Facets}
    {ps : Option (List (String × Schema))} {i a : Option Schema} {ms : Option (List Schema)}
    {fields : List FieldType} {extra : Option TypeExpr}
    (hfields : List.Forall₂ R (ps.getD []) fields)
    (hextra : extraOf r (.node f ps i a ms) = .ok extra) :
    (Schema.IsMapNode f ps a ∧ fields = []
        ∧ ∃ value, extra = some value ∧ ofObjectParts r f fields extra = .mapping value)
      ∨ (¬ Schema.IsMapNode f ps a ∧ ofObjectParts r f fields extra
          = .record (f.title.map r.inlinedName) fields (f.representation.getD .fixedRecord) extra) := by
  -- There is a type of other keys exactly where there is a schema of other values.
  have hsome : extra.isSome = a.isSome := by
    rcases extraOf_eq_ok_iff.1 hextra with ⟨hnone, rfl⟩ | ⟨value, u, hvalue, -, rfl⟩
    · rw [show a = Option.none from hnone]
      rfl
    · rw [show a = some value from hvalue]
      rfl
  by_cases hmap : Schema.IsMapNode f ps a
  · obtain ⟨hps, hrepresentation, ha⟩ := hmap
    have hnil : fields = [] := by
      rw [hps] at hfields
      exact List.forall₂_nil_left_iff.1 hfields
    obtain ⟨value, rfl⟩ := Option.isSome_iff_exists.1 (hsome.trans ha)
    exact .inl ⟨⟨hps, hrepresentation, ha⟩, hnil, value, rfl, by
      simp [ofObjectParts, hnil, hrepresentation]⟩
  · refine .inr ⟨hmap, ?_⟩
    unfold ofObjectParts
    split
    · rename_i value hrepresentation
      exact absurd ⟨List.forall₂_nil_right_iff.1 hfields, hrepresentation, hsome.symm⟩ hmap
    · rfl

/-- What is read off each kind of node. -/
inductive ReadOff (r : Registry) : Schema → TypeExpr → Prop
  | reference {path unit : String} : r.resolve path = some unit →
      ReadOff r (.reference path) (.named unit)
  | scalar {f ps i a ms} {k : ScalarKind} : f.kind.scalar? = some k →
      ReadOff r (.node f ps i a ms) (.primitive k)
  | null {f ps i a ms} : f.kind = .null → ReadOff r (.node f ps i a ms) .none
  | array {f ps a ms} {item : Schema} {u : TypeExpr} : f.kind = .array → ofSchema r item = .ok u →
      ReadOff r (.node f ps (some item) a ms) (.sequence u)
  | union {f ps i a ms} {ts : List TypeExpr} : f.kind = .union →
      List.Forall₂ (fun m u => ofSchema r m = .ok u) (ms.getD []) ts →
      ReadOff r (.node f ps i a ms) (unionOf ts)
  | map {f ps i ms} {value : Schema} {u : TypeExpr} : f.kind = .object →
      Schema.IsMapNode f ps (some value) → ofNormalForm r value = .ok u →
      ReadOff r (.node f ps i (some value) ms) (.mapping u)
  | record {f ps i a ms} {fields : List FieldType} {extra : Option TypeExpr} : f.kind = .object →
      ¬ Schema.IsMapNode f ps a →
      List.Forall₂ (fun p field => ∃ u, ofNormalForm r p.2 = .ok u
        ∧ field = FieldType.mk p.1 u ((f.required.getD []).contains p.1)) (ps.getD []) fields →
      extraOf r (.node f ps i a ms) = .ok extra →
      ReadOff r (.node f ps i a ms)
        (.record (f.title.map r.inlinedName) fields (f.representation.getD .fixedRecord) extra)

/-- What is read follows the schema, part by part. -/
theorem readOff_of_ofSchema (ht : ofSchema r s = .ok t) : ReadOff r s t := by
  cases s with
  | reference path =>
    obtain ⟨unit, hunit, rfl⟩ := ofSchema_reference_eq_ok_iff.1 ht
    exact .reference hunit
  | node f ps i a ms =>
    rcases f.kind.cases_read with ⟨k, hk⟩ | hk | hk | hk | hk
    · rw [ofSchema_scalar hk] at ht
      exact Except.ok.inj ht ▸ .scalar hk
    · rw [ofSchema_null hk] at ht
      exact Except.ok.inj ht ▸ .null hk
    · obtain ⟨item, u, rfl, hu, rfl⟩ := (ofSchema_array_eq_ok_iff hk).1 ht
      exact .array hk hu
    · obtain ⟨ts, hts, rfl⟩ := (ofSchema_union_eq_ok_iff hk).1 ht
      exact .union hk hts
    · obtain ⟨fields, extra, hfields, hextra, rfl⟩ := (ofSchema_object_eq_ok_iff hk).1 ht
      rcases ofObjectParts_cases hfields hextra with ⟨hmap, -, value, rfl, heq⟩ | ⟨hmap, heq⟩
      · rcases extraOf_eq_ok_iff.1 hextra with ⟨-, hnone⟩ | ⟨other, u, ha, hu, hsome⟩
        · cases hnone
        · cases hsome
          cases (show a = some other from ha)
          exact heq ▸ .map hk hmap hu
      · exact heq ▸ .record hk hmap hfields hextra

/-- What is right below an expression was read off the schemas that reading goes on with, unless the
    expression was read off the only member of a union. -/
theorem ReadOff.of_children (h : ReadOff r s t) :
    (∃ m ∈ s.readNext, ofSchema r m = .ok t)
      ∨ ∀ c ∈ t.children, ∃ m ∈ s.readNext, ofSchema r m = .ok c := by
  cases h with
  | reference _ => exact .inr (by simp [children])
  | scalar _ => exact .inr (by simp [children])
  | null _ => exact .inr (by simp [children])
  | @array f ps a ms item u hk hu =>
    refine .inr fun c hc => ⟨item, by simp [Schema.readNext, hk], ?_⟩
    rw [children, List.mem_singleton] at hc
    exact hc ▸ hu
  | @union f ps i a ms ts hk hts =>
    have hread : ∀ u ∈ ts, ∃ m ∈ (Schema.node f ps i a ms).readNext, ofSchema r m = .ok u := by
      intro u hu
      simpa [Schema.readNext, hk] using Outcome.mem_of_forall₂ hts hu
    -- A union of one member is read as that member, and then the expression is not above anything.
    unfold unionOf
    split
    · exact .inl (hread _ List.mem_cons_self)
    · exact .inr hread
  | @map f ps i ms value u hk _ hu =>
    refine .inr fun c hc => ⟨value.normalize, by simp [Schema.readNext, hk], ?_⟩
    rw [children, List.mem_singleton] at hc
    exact hc ▸ hu
  | @record f ps i a ms fields extra hk _ hfields hextra =>
    have hnext : ∀ n ∈ (ps.getD []).map Prod.snd ++ a.toList,
        n.normalize ∈ (Schema.node f ps i a ms).readNext := fun n hn => by
      simpa only [Schema.readNext, hk] using List.mem_map_of_mem hn
    refine .inr fun c hc => ?_
    rcases List.mem_append.1 hc with hc | hc
    · obtain ⟨field, hfield, rfl⟩ := List.mem_map.1 hc
      obtain ⟨p, hp, u, hu, rfl⟩ := Outcome.mem_of_forall₂ hfields hfield
      exact ⟨_, hnext p.2 (List.mem_append_left _ (List.mem_map_of_mem hp)), hu⟩
    · rcases extraOf_eq_ok_iff.1 hextra with ⟨-, rfl⟩ | ⟨value, u, ha, hu, rfl⟩
      · cases hc
      · cases (show a = some value from ha)
        rw [Option.toList_some, List.mem_singleton] at hc
        exact hc ▸ ⟨_, hnext value (List.mem_append_right _ (List.mem_singleton_self _)), hu⟩

/-- Induction along the reading: all parts of what is read have a property when each expression has it
    for the schema that it was read off, and the schemas that reading goes on with are of the same
    kind. -/
theorem each_ofSchema {Q : TypeExpr → Prop} {G : Schema → Prop}
    (hnext : ∀ s, G s → ∀ m ∈ s.readNext, G m)
    (hself : ∀ s t, G s → (∀ m ∈ s.readNext, ∀ u, ofSchema r m = .ok u → Q u) → ReadOff r s t → Q t)
    (hs : G s) (ht : ofSchema r s = .ok t) : t.Each Q := by
  induction s using Schema.induction_read generalizing t with
  | h s ih =>
    have hbelow : ∀ m ∈ s.readNext, ∀ u, ofSchema r m = .ok u → u.Each Q :=
      fun m hm u hu => ih m hm (hnext s hs m hm) hu
    have hread := readOff_of_ofSchema ht
    -- Either the expression was read off a smaller schema already, or its children were.
    rcases hread.of_children with ⟨m, hm, hmt⟩ | hchildren
    · exact hbelow m hm t hmt
    · refine each_iff.2 ⟨hself s t hs (fun m hm u hu => (hbelow m hm u hu).self) hread, fun c hc => ?_⟩
      obtain ⟨m, hm, hmc⟩ := hchildren c hc
      exact hbelow m hm c hmc

/-- A single member stands for its union, so what is read off a union is a union, or it was read off
    the member. -/
theorem unionOf_of_read {Q : TypeExpr → Prop} {f : Facets} {ps : Option (List (String × Schema))}
    {i a : Option Schema} {ms : Option (List Schema)} {ts : List TypeExpr} (hk : f.kind = .union)
    (hts : List.Forall₂ (fun m u => ofSchema r m = .ok u) (ms.getD []) ts)
    (hbelow : ∀ m ∈ (Schema.node f ps i a ms).readNext, ∀ u, ofSchema r m = .ok u → Q u)
    (h : ts.length ≠ 1 → Q (.union ts)) : Q (unionOf ts) := by
  have hmember : ∀ u ∈ ts, Q u := by
    intro u hu
    obtain ⟨m, hm, hmu⟩ := Outcome.mem_of_forall₂ hts hu
    exact hbelow m (by simpa [Schema.readNext, hk] using hm) u hmu
  rcases ts with - | ⟨u, - | ⟨v, ts⟩⟩
  · exact h (by simp)
  · exact hmember u (List.mem_singleton_self u)
  · exact h (by simp)

/-! ### Names -/

/-- The name that the expression carries, if it is one that carries a name, is among some. -/
def Labelled (N : String → Prop) : TypeExpr → Prop
  | .named name => N name
  | .record label _ _ _ => ∃ name, label = some name ∧ N name
  | _ => True

/-- Labels that are among some names are among more. -/
theorem Labelled.mono {N M : String → Prop} {e : TypeExpr} (h : Labelled N e)
    (hNM : ∀ name, N name → M name) : Labelled M e := by
  cases e with
  | named name => exact hNM name h
  | record label fields representation extra =>
    obtain ⟨name, hlabel, hname⟩ := h
    exact ⟨name, hlabel, hNM name hname⟩
  | _ => trivial

/-- A registry gives names that are among some. -/
structure NamesWithin (N : String → Prop) (r : Registry) : Prop where
  resolve {path unit} : r.resolve path = some unit → N unit
  inlined {title unit} : r.inlined.get? title = some unit → N unit

/-- Labels come from the registry. -/
theorem ofSchema_labelled {N : String → Prop} (hN : NamesWithin N r) (h : s.Each r.Covers)
    (ht : ofSchema r s = .ok t) : t.Each (Labelled N) := by
  refine each_ofSchema (G := fun s => s.Each r.Covers)
    (fun s hs => each_readNext r.normalStable_covers hs) (fun s t hs hbelow hread => ?_) h ht
  cases hread with
  | reference hunit => exact hN.resolve hunit
  | scalar _ => trivial
  | null _ => trivial
  | array _ _ => trivial
  | union hk hts => exact unionOf_of_read hk hts hbelow fun _ => trivial
  | map _ _ _ => trivial
  | record hk hmap _ _ =>
    -- A record carries the name that the registry has for the title.
    obtain ⟨title, htitle, hsome⟩ := (hs.self.2 hk).resolve_left hmap
    obtain ⟨unit, hunit⟩ := Option.isSome_iff_exists.1 hsome
    exact ⟨unit, by simp [htitle, Registry.inlinedName, hunit], hN.inlined hunit⟩

/-- The names in what is read off a covered schema are the ones that the registry gives. -/
theorem ofNormalForm_labelled {N : String → Prop} (hN : NamesWithin N r) (h : s.Each r.Covers)
    (ht : ofNormalForm r s = .ok t) : t.Each (Labelled N) :=
  ofSchema_labelled hN (h.normalize r.normalStable_covers) ht

/-! ### An object shape -/

/-- A property of all parts of the signature of an object shape is one of its record, of its fields
    and of the type of other keys. -/
theorem each_ofObject {Q : TypeExpr → Prop} {options : ObjectOptions} {name : String}
    {parent : Option Inherited} (hname : name ≠ "")
    (h : ofObject r s options (some name) parent = .ok t)
    (hrecord : ∀ fields rep extra, Q (.record (some name) fields rep extra))
    (hunion : ∀ fields rep extra, Q (.union [.record (some name) fields rep extra, .none]))
    (hnone : Q .none)
    (hfield : ∀ p ∈ s.properties, ∀ u, fieldType r parent p = .ok u → u.Each Q)
    (hextra : ∀ value u, s.additional = some value → ofNormalForm r value = .ok u → u.Each Q) :
    t.Each Q := by
  obtain ⟨fields, extra, hfields, hread, rfl⟩ := (ofObject_eq_ok_iff hname).1 h
  have hself : (TypeExpr.record (some name) fields
      (s.representation.getD options.representation) extra).Each Q := by
    refine each_iff.2 ⟨hrecord _ _ _, fun e he => ?_⟩
    rcases List.mem_append.1 he with he | he
    · obtain ⟨field, hmem, rfl⟩ := List.mem_map.1 he
      obtain ⟨p, hp, u, hu, rfl⟩ := Outcome.mem_of_forall₂ (fieldsOf_eq_ok_iff.1 hfields) hmem
      exact hfield p hp u hu
    · rw [Option.mem_toList] at he
      rcases extraOf_eq_ok_iff.1 hread with ⟨-, hno⟩ | ⟨value, u, ha, hu, hsome⟩
      · rw [he] at hno
        cases hno
      · rw [he] at hsome
        cases hsome
        exact hextra value e ha hu
  -- Of a nullable object the record is one alternative beside null.
  split
  · refine each_iff.2 ⟨hunion _ _ _, fun e he => ?_⟩
    simp only [children, List.mem_cons, List.not_mem_nil, or_false] at he
    rcases he with rfl | rfl
    · exact hself
    · exact each_iff.2 ⟨hnone, by simp [children]⟩
  · exact hself

end TypeExpr

end DataShapes
