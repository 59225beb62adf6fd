import DataShapes.Proofs.Agreement.Descriptors

/-!
# Checks settle what declarations admit

The check of a value against a descriptor walks the declarations and follows names.  It settles
whether the descriptor admits the value as soon as the check of every name that it follows settles
whether the value is one of the name.  Names are followed for the value itself only where they are
bare; below an array, a map or an object they are followed for smaller values.

Main definitions:
* `Noted.Settles`: a check ends with the right answer;
* `Descriptor.bareNames`: the names outside every array and map;
* `Shape.names`, `Shape.bareNames`: the names in the declarations of a shape.

Main statements:
* `Descriptor.accepts_settles`: the check of a descriptor;
* `Shape.admits_settles`: the check of a shape.
-/

namespace DataShapes

namespace Noted

/-- The check ends, and its answer says whether the statement holds. -/
def Settles (x : Noted Bool) (p : Prop) : Prop := ∃ b, x.result = .ok b ∧ (b = true ↔ p)

/-- What is settled is settled for every equivalent property. -/
theorem Settles.congr {x : Noted Bool} {p q : Prop} (h : x.Settles p) (hpq : p ↔ q) :
    x.Settles q := by
  rwa [← hpq]

/-- A check without any steps settles what its answer says. -/
theorem settles_pure {b : Bool} {p : Prop} (h : b = true ↔ p) : (pure b : Noted Bool).Settles p :=
  ⟨b, rfl, h⟩

/-- Checking all items of a list settles whether all of them have a property. -/
theorem settles_all {α : Type} {check : α → Noted Bool} {p : α → Prop} {xs : List α}
    (h : ∀ x ∈ xs, (check x).Settles (p x)) : (all check xs).Settles (∀ x ∈ xs, p x) := by
  induction xs with
  | nil => exact settles_pure (by simp)
  | cons x xs ih =>
    obtain ⟨b, hb, hx⟩ := h x List.mem_cons_self
    have hxs : (all check xs).Settles (∀ x ∈ xs, p x) :=
      ih fun y hy => h y (List.mem_cons_of_mem _ hy)
    rw [List.forall_mem_cons]
    -- The check ends at the first item that fails, so the others need not be settled then.
    cases b with
    | false =>
      refine ⟨false, by simp [all, hb, Except.bind], ?_⟩
      have hno : ¬ p x := fun hp => Bool.false_ne_true (hx.2 hp)
      simp [hno]
    | true =>
      obtain ⟨b, hb', hxs⟩ := hxs
      refine ⟨b, by simp [all, hb, hb', Except.bind], ?_⟩
      rw [hxs]
      exact (and_iff_right (hx.1 rfl)).symm

end Noted

/-! ### Depths of values -/

namespace Value

/-- No value of a list is deeper than the list. -/
theorem depth_le_depths {vs : List Value} {v : Value} (h : v ∈ vs) : v.depth ≤ depths vs := by
  induction vs with
  | nil => cases h
  | cons w vs ih =>
    rw [depths]
    rcases List.mem_cons.1 h with rfl | h
    · exact Nat.le_max_left _ _
    · exact Nat.le_trans (ih h) (Nat.le_max_right _ _)

/-- No value of a dictionary is deeper than its entries. -/
theorem depth_le_entryDepths {es : List (Value × Value)} {e : Value × Value} (h : e ∈ es) :
    e.2.depth ≤ entryDepths es := by
  induction es with
  | nil => cases h
  | cons f es ih =>
    obtain ⟨k, w⟩ := f
    rw [entryDepths]
    rcases List.mem_cons.1 h with rfl | h
    · exact Nat.le_max_left _ _
    · exact Nat.le_trans (ih h) (Nat.le_max_right _ _)

/-- An item of a list is less deep than the list. -/
theorem depth_lt_list {vs : List Value} {v : Value} (h : v ∈ vs) : v.depth < (list vs).depth := by
  have := depth_le_depths h
  rw [depth]
  omega

/-- An item of a tuple is less deep than the tuple. -/
theorem depth_lt_tuple {vs : List Value} {v : Value} (h : v ∈ vs) : v.depth < (tuple vs).depth := by
  have := depth_le_depths h
  rw [depth]
  omega

/-- A value in a dictionary is less deep than the dictionary. -/
theorem depth_lt_dict {es : List (Value × Value)} {e : Value × Value} (h : e ∈ es) :
    e.2.depth < (dict es).depth := by
  have := depth_le_entryDepths h
  rw [depth]
  omega

end Value

/-! ### Checks of descriptors -/

namespace Descriptor

mutual

/-- The names in a descriptor outside every array and map. -/
def bareNames : Descriptor → List String
  | .union members => bareNamesOfAll members
  | .named name => [name]
  | _ => []

/-- The names in descriptors of a list outside every array and map. -/
def bareNamesOfAll : List Descriptor → List String
  | [] => []
  | d :: ds => bareNames d ++ bareNamesOfAll ds

end

/-- A union has the bare names of its members. -/
theorem mem_bareNames_union {members : List Descriptor} {name : String} :
    name ∈ (Descriptor.union members).bareNames ↔ ∃ m ∈ members, name ∈ m.bareNames := by
  have hall : ∀ ds : List Descriptor, bareNamesOfAll ds = ds.flatMap bareNames := by
    intro ds
    induction ds with
    | nil => rfl
    | cons d ds ih => rw [bareNamesOfAll, ih, List.flatMap_cons]
  rw [bareNames, hall, List.mem_flatMap]

/-- Bare names are names. -/
theorem mem_names_of_mem_bareNames {d : Descriptor} {name : String} (h : name ∈ d.bareNames) :
    name ∈ d.names := by
  induction d using induction_parts with
  | union members ih =>
    obtain ⟨m, hm, h⟩ := mem_bareNames_union.1 h
    exact mem_names_union.2 ⟨m, hm, ih m hm h⟩
  | named other => exact h
  | _ => simp [bareNames] at h

variable {c : Catalog} {follow : String → Value → Noted Bool}

/-- Trying all members of a union finds those that admit the value. -/
theorem acceptingMembers_settles {ds : List Descriptor} {v : Value}
    (h : ∀ d ∈ ds, (d.accepts follow v).Settles (d.Admits c v)) :
    ∃ admitting, (acceptingMembers follow ds v).result = .ok admitting
      ∧ (admitting ≠ [] ↔ ∃ d ∈ ds, d.Admits c v) := by
  induction ds with
  | nil => exact ⟨[], by simp [acceptingMembers], by simp⟩
  | cons d ds ih =>
    obtain ⟨b, hb, hd⟩ := h d List.mem_cons_self
    -- Every member is tried, so the check of each one has to settle its question.
    obtain ⟨rest, hrest, hds⟩ := ih fun e he => h e (List.mem_cons_of_mem _ he)
    refine ⟨if b then d :: rest else rest, ?_, ?_⟩
    · simp [acceptingMembers, hb, hrest, Except.bind]
    · rw [List.exists_mem_cons_iff, ← hd, ← hds]
      cases b <;> simp

/-- The check of a descriptor settles whether it admits a value, when following a bare name settles
    it for the value and following any name settles it for less deep values. -/
theorem accepts_settles {d : Descriptor} {v : Value}
    (hbare : ∀ name ∈ d.bareNames, (follow name v).Settles (Inhabits c v (.named name)))
    (hdeep : ∀ name ∈ d.names, ∀ w, w.depth < v.depth →
      (follow name w).Settles (Inhabits c w (.named name))) :
    (d.accepts follow v).Settles (d.Admits c v) := by
  induction d using induction_parts generalizing v with
  | scalar kind => exact Noted.settles_pure admits_scalar_iff.symm
  | array item ih =>
    have hdeep : ∀ name ∈ item.names, ∀ w, w.depth < v.depth →
        (follow name w).Settles (Inhabits c w (.named name)) := hdeep
    -- Items are less deep, and so are the values in them.
    have hitems : ∀ items : List Value, (∀ x ∈ items, x.depth < v.depth) →
        (Noted.all (item.accepts follow) items).Settles (∀ x ∈ items, item.Admits c x) := by
      intro items hdepth
      refine Noted.settles_all fun x hx => ih (fun name hname => ?_) fun name hname w hw => ?_
      · exact hdeep name (mem_names_of_mem_bareNames hname) x (hdepth x hx)
      · exact hdeep name hname w (Nat.lt_trans hw (hdepth x hx))
    have hiff : (Descriptor.array item).Admits c v ↔ v.IsArrayOf (item.Admits c) := admits_array_iff
    cases v with
    | list items =>
      refine (hitems items fun x hx => Value.depth_lt_list hx).congr ?_
      rw [hiff]
      simp [Value.IsArrayOf]
    | tuple items =>
      refine (hitems items fun x hx => Value.depth_lt_tuple hx).congr ?_
      rw [hiff]
      simp [Value.IsArrayOf]
    | _ => exact Noted.settles_pure (by rw [hiff]; simp [Value.IsArrayOf])
  | map value ih =>
    have hdeep : ∀ name ∈ value.names, ∀ w, w.depth < v.depth →
        (follow name w).Settles (Inhabits c w (.named name)) := hdeep
    have hentry : ∀ e : Value × Value, e.2.depth < v.depth →
        (if e.1.isStr then value.accepts follow e.2 else pure false : Noted Bool).Settles
          (e.1.isStr = true ∧ value.Admits c e.2) := by
      intro e he
      cases hkey : e.1.isStr with
      | false => exact Noted.settles_pure (by simp)
      | true =>
        have hvalue : (value.accepts follow e.2).Settles (value.Admits c e.2) := by
          refine ih (fun name hname => ?_) fun name hname w hw => ?_
          · exact hdeep name (mem_names_of_mem_bareNames hname) e.2 he
          · exact hdeep name hname w (Nat.lt_trans hw he)
        exact hvalue.congr (by simp)
    have hiff : (Descriptor.map value).Admits c v ↔ v.IsMapOf (value.Admits c) := admits_map_iff
    cases v with
    | dict es =>
      refine (Noted.settles_all fun e he => hentry e (Value.depth_lt_dict he)).congr ?_
      rw [hiff]
      simp [Value.IsMapOf, forall_and]
    | _ => exact Noted.settles_pure (by rw [hiff]; simp [Value.IsMapOf])
  | union members ih =>
    have hmem : ∀ m ∈ members, (m.accepts follow v).Settles (m.Admits c v) := by
      intro m hm
      refine ih m hm (fun name hname => ?_) fun name hname => ?_
      · exact hbare name (mem_bareNames_union.2 ⟨m, hm, hname⟩)
      · exact hdeep name (mem_names_union.2 ⟨m, hm, hname⟩)
    obtain ⟨admitting, hadmitting, hiff⟩ := acceptingMembers_settles hmem
    -- Pointing out that several members admit the value does not change the answer.
    refine ⟨!admitting.isEmpty, ?_, ?_⟩
    · rw [accepts, Noted.result_bind, hadmitting]
      simp only [Except.bind]
      split <;> simp [Except.bind]
    · rw [admits_union_iff, ← hiff]
      simp
  | named name =>
    exact (hbare name (by simp [bareNames])).congr admits_named_iff.symm
  | raw w => exact Noted.settles_pure ⟨nofun, nofun⟩

end Descriptor

/-! ### Checks of shapes -/

namespace Shape

variable {c : Catalog} {s : Shape} {accepts : Descriptor → Value → Noted Bool} {v : Value}

/-- The names in the declarations of the shape. -/
def names (s : Shape) : List String :=
  (s.descriptor?.map Descriptor.names).getD [] ++ s.specs.flatMap (·.descriptor.names)
    ++ s.additional.toList.flatMap (·.1.names)

/-- The names in the declaration of a type shape outside every array and map. -/
def bareNames (s : Shape) : List String := (s.descriptor?.map Descriptor.bareNames).getD []

/-- The names in the type of a type shape are names of the shape. -/
theorem mem_names_of_descriptor {d : Descriptor} {name : String} (hd : s.descriptor? = some d)
    (h : name ∈ d.names) : name ∈ s.names := by
  refine List.mem_append_left _ (List.mem_append_left _ ?_)
  rw [hd]
  exact h

/-- The names in the types of properties are names of the shape. -/
theorem mem_names_of_spec {spec : PropertySpec} {name : String} (hspec : spec ∈ s.specs)
    (h : name ∈ spec.descriptor.names) : name ∈ s.names :=
  List.mem_append_left _ (List.mem_append_right _ (List.mem_flatMap.2 ⟨spec, hspec, h⟩))

/-- The names in the type of what other keys have are names of the shape. -/
theorem mem_names_of_additional {e : Descriptor × PropertyOptions} {name : String}
    (he : s.additional = some e) (h : name ∈ e.1.names) : name ∈ s.names :=
  List.mem_append_right _ (List.mem_flatMap.2 ⟨e, Option.mem_toList.2 he, h⟩)

/-- Bare names are names. -/
theorem mem_names_of_mem_bareNames {name : String} (h : name ∈ s.bareNames) : name ∈ s.names := by
  unfold bareNames at h
  cases hd : s.descriptor? with
  | none => simp [hd] at h
  | some d =>
    rw [hd] at h
    exact mem_names_of_descriptor hd (Descriptor.mem_names_of_mem_bareNames h)

/-- Only objects have properties. -/
theorem isObject_of_mem_specs {spec : PropertySpec} (h : spec ∈ s.specs) : s.isObject = true := by
  unfold specs at h
  unfold isObject
  cases hbody : s.body with
  | object specs additional options parent => rfl
  | type d o => simp [hbody] at h

/-- Only objects have values under other keys. -/
theorem isObject_of_additional {e : Descriptor × PropertyOptions} (h : s.additional = some e) :
    s.isObject = true := by
  unfold additional at h
  unfold isObject
  cases hbody : s.body with
  | object specs additional options parent => rfl
  | type d o => simp [hbody] at h

/-- The check for needed keys finds out whether one is missing. -/
theorem hasNeededKeys_iff {es : List (Value × Value)} :
    s.hasNeededKeys es = true ↔ s.HasNeeded es := by
  have hpresent : ∀ spec : PropertySpec, (es.any fun e => e.1 == .str spec.name) = true
      ↔ ∃ e ∈ es, e.1 = .str spec.name := by
    intro spec
    simp only [List.any_eq_true, Value.beq_str_iff]
  unfold hasNeededKeys HasNeeded
  simp only [List.all_eq_true, Bool.or_eq_true, hpresent, Bool.not_eq_true',
    PropertySpec.needsValue, Bool.and_eq_false_iff, Bool.not_eq_false']
  refine forall_congr' fun spec => forall_congr' fun _ => ?_
  cases spec.options.isRequired <;> cases spec.options.nullable <;>
    cases spec.options.hasDefault <;> simp

/-- Where null is admitted besides, it is settled first. -/
theorem settles_orNull {x : Noted Bool} {p : Prop} {isNull nullable : Bool}
    (hnull : isNull = true ↔ v = .null) (h : x.Settles p) :
    (if isNull && nullable then pure true else x : Noted Bool).Settles
      ((nullable = true ∧ v = .null) ∨ p) := by
  rw [← hnull]
  cases isNull with
  | false => exact h.congr (by simp)
  | true =>
    cases nullable with
    | false => exact h.congr (by simp)
    | true => exact Noted.settles_pure (by simp)

/-- The check of an entry of an object settles whether it fits the declarations. -/
theorem admitsEntry_settles {key : String} (hnames : (s.specs.map PropertySpec.name).Nodup)
    (hspec : ∀ spec ∈ s.specs, (accepts spec.descriptor v).Settles (spec.descriptor.Admits c v))
    (hother : ∀ e, s.additional = some e → (accepts e.1 v).Settles (e.1.Admits c v)) :
    (s.admitsEntry accepts key v).Settles
      (FitsEntry PropertySpec.name s.specs s.additional
        (fun spec x => spec.descriptor.AdmitsAs c spec.options x) (fun e x => e.1.AdmitsAs c e.2 x)
        key v) := by
  unfold admitsEntry FitsEntry
  cases hfind : s.specs.find? fun spec => spec.name == key with
  | some spec =>
    have hmem : spec ∈ s.specs := List.mem_of_find?_eq_some hfind
    have hkey : spec.name = key := by simpa using List.find?_some hfind
    refine (settles_orNull (v := v) (by cases v <;> simp) (hspec spec hmem)).congr ?_
    constructor
    · intro h
      refine ⟨fun spec' hmem' hkey' => ?_, fun hno => absurd hkey (hno spec hmem)⟩
      -- The first property of that name is the only one.
      have hsame : spec' = spec :=
        List.inj_on_of_nodup_map hnames hmem' hmem (hkey'.trans hkey.symm)
      rwa [hsame]
    · rintro ⟨hvalue, -⟩
      exact hvalue spec hmem hkey
  | none =>
    have hno : ∀ spec ∈ s.specs, spec.name ≠ key := by
      intro spec hmem hkey
      have := List.find?_eq_none.1 hfind spec hmem
      simp [hkey] at this
    -- No property has the key, so what is asked of the entry is what is asked of other keys.
    have hiff : ∀ p : Prop, ((∀ spec ∈ s.specs, spec.name = key →
        spec.descriptor.AdmitsAs c spec.options v)
        ∧ ((∀ spec ∈ s.specs, spec.name ≠ key) → p)) ↔ p := by
      intro p
      constructor
      · rintro ⟨-, h⟩
        exact h hno
      · intro h
        exact ⟨fun spec hmem hkey => absurd hkey (hno spec hmem), fun _ => h⟩
    rw [hiff]
    cases hadditional : s.additional with
    | none => exact Noted.settles_pure (by simp)
    | some e =>
      obtain ⟨d, o⟩ := e
      exact (settles_orNull (v := v) (by cases v <;> simp) (hother (d, o) hadditional)).congr
        (by simp [Descriptor.AdmitsAs])

/-- A dictionary is an object of the shape when its keys are texts, its entries have the property, and
    nothing that is needed is missing. -/
theorem isObjectOf_dict_iff {es : List (Value × Value)} {entry : String → Value → Prop} :
    (Value.dict es).IsObjectOf s entry ↔
      (∀ e ∈ es, e.1.isStr = true) ∧ (∀ e ∈ es, entry e.1.text e.2) ∧ s.HasNeeded es := by
  simp only [Value.IsObjectOf, Value.dict.injEq, exists_eq_left']
  refine and_congr_right fun hkeys => and_congr_left fun _ => ?_
  constructor
  · intro h e he
    have hkey : e.1 = .str e.1.text := Value.eq_str_of_isStr (hkeys e he)
    exact h e.1.text e.2 (hkey ▸ he)
  · intro h k x hx
    exact h (.str k, x) hx

/-- The check of a shape settles whether the shape admits a value, when the check of the type of a
    type shape does so for the value, and the checks of the properties of an object shape do so for
    less deep values. -/
theorem admits_settles (hnames : (s.specs.map PropertySpec.name).Nodup)
    (htype : ∀ d, s.descriptor? = some d → (accepts d v).Settles (d.Admits c v))
    (hspec : ∀ spec ∈ s.specs, ∀ w, w.depth < v.depth →
      (accepts spec.descriptor w).Settles (spec.descriptor.Admits c w))
    (hother : ∀ e, s.additional = some e → ∀ w, w.depth < v.depth →
      (accepts e.1 w).Settles (e.1.Admits c w)) :
    (s.admits accepts v).Settles (s.Admits c v) := by
  unfold Shape.admits Shape.Admits
  cases hbody : s.body with
  | type d o =>
    have hnull : s.nullable = o.nullable := by simp [nullable, hbody]
    rw [hnull]
    exact settles_orNull (v := v) (by cases v <;> simp) (htype d (by simp [descriptor?, hbody]))
  | object specs additional options parent =>
    have hnull : s.nullable = options.nullable := by simp [nullable, hbody]
    have hspecs : s.specs = specs := by simp [Shape.specs, hbody]
    have hadditional : s.additional = additional := by simp [Shape.additional, hbody]
    rw [hnull, ← hspecs, ← hadditional]
    refine settles_orNull (v := v) (by cases v <;> simp) ?_
    cases v with
    | dict es =>
      have hentries : (Noted.all (fun e => s.admitsEntry accepts e.1.text e.2) es).Settles
          (∀ e ∈ es, FitsEntry PropertySpec.name s.specs s.additional
            (fun spec x => spec.descriptor.AdmitsAs c spec.options x)
            (fun e x => e.1.AdmitsAs c e.2 x) e.1.text e.2) := by
        refine Noted.settles_all fun e he => ?_
        have hdepth : e.2.depth < (Value.dict es).depth := Value.depth_lt_dict he
        exact admitsEntry_settles hnames (fun spec hmem => hspec spec hmem e.2 hdepth)
          fun other hmem => hother other hmem e.2 hdepth
      rw [isObjectOf_dict_iff]
      -- The keys are checked first, then the entries, then what is needed.
      have hkeys : (Value.dict es).isTextKeyed = true ↔ ∀ e ∈ es, e.1.isStr = true :=
        List.all_eq_true
      obtain ⟨b, hb, hentries⟩ := hentries
      rw [← hkeys, ← hentries, ← hasNeededKeys_iff]
      refine ⟨(Value.dict es).isTextKeyed && (b && s.hasNeededKeys es), ?_, by simp⟩
      cases (Value.dict es).isTextKeyed with
      | false => simp
      | true => cases b <;> simp [hb, Except.bind]
    | _ => exact Noted.settles_pure (by simp [Value.IsObjectOf])

end Shape

end DataShapes
