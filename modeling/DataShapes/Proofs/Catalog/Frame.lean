import DataShapes.Proofs.Catalog.Endings

/-!
# Assembly in a larger catalog

Of a catalog the assembly of a definition looks at the names in its declarations, and at what the shapes
of these names lead to.  So a further shape in the catalog makes no difference to it unless the
declarations mention that shape: it gives the same schema and the same registry, or a problem of the
same class.  The texts of problems may differ, since some of them list the names of the catalog.

Main definitions:
* `Outcome.Matches`: two computations give related results, or problems of one class.

Main statements:
* `Catalog.Reachable.conforms_matches`: the check of a default;
* `Catalog.Reachable.schemaOf_matches`, `Catalog.Reachable.objectSchema_matches`: the assembly of a
  property and of an object.
-/

namespace DataShapes

/-! ### Matching outcomes -/

namespace Outcome

variable {α β γ δ : Type}

/-- Both succeed with related results, or both fail with problems of one class. -/
inductive Matches (R : α → β → Prop) : Except Problem α → Except Problem β → Prop where
  | ok {a : α} {b : β} : R a b → Matches R (.ok a) (.ok b)
  | error {p q : Problem} : p.category = q.category → Matches R (.error p) (.error q)

theorem Matches.refl (x : Except Problem α) : Matches Eq x x := by
  cases x with
  | error p => exact .error rfl
  | ok a => exact .ok rfl

/-- Steps that match, one after the other, match. -/
theorem Matches.bind {R : γ → δ → Prop} {x y : Except Problem α} {f : α → Except Problem γ}
    {g : α → Except Problem δ} (h : Matches Eq x y) (hf : ∀ a, x = .ok a → Matches R (f a) (g a)) :
    Matches R (x.bind f) (y.bind g) := by
  cases h with
  | ok hab =>
    subst hab
    exact hf _ rfl
  | error hpq => exact .error hpq

end Outcome

namespace Noted

variable {α β γ : Type}

/-- The results of two computations match. -/
def Matches (R : α → β → Prop) (x : Noted α) (y : Noted β) : Prop :=
  Outcome.Matches R x.result y.result

theorem Matches.refl (x : Noted α) : Matches Eq x x := Outcome.Matches.refl x.result

/-- Sequences match when their first parts match, and their second parts do behind every result. -/
theorem Matches.bind {R : β → γ → Prop} {x y : Noted α} {f : α → Noted β} {g : α → Noted γ}
    (h : Matches Eq x y) (hf : ∀ a, x.result = .ok a → Matches R (f a) (g a)) :
    Matches R (x >>= f) (y >>= g) := by
  unfold Matches
  rw [result_bind, result_bind]
  exact Outcome.Matches.bind h hf

/-- Matching is kept by all the ways in which checks are put together. -/
theorem composes_matches : Composes fun _ x y => Matches Eq x y where
  succeed _ := .refl _
  bind h hf := h.bind hf

end Noted

/-! ### Checks -/

namespace Catalog

variable {c : Catalog} {t : Shape} {self : String}

/-- A name other than that of the further shape leads to the same from a definition. -/
theorem find_matches {name : String} (hname : name ≠ t.name) :
    Outcome.Matches Eq ((Scope.defining self (some c)).find name)
      ((Scope.defining self (some (c.add t))).find name) := by
  by_cases hself : name = self
  · simp only [Scope.find, if_pos hself]
    exact .ok rfl
  · simp only [Scope.find, if_neg hself, Option.bind_some, get?_add hname]
    cases c.shapes.get? name with
    | some s => exact .ok rfl
    | none => exact .error rfl

/-- Following a name other than that of the further shape gives the same answer, when as many names may
    be followed as are needed. -/
theorem Reachable.follow_matches (hc : c.Reachable) (ht : t.name ∉ c.names) (hself : self ∉ c.names)
    {name : String} (hname : name ≠ t.name) {fuel fuel' : Nat} {v : Value} (hpos : 0 < fuel)
    (hpos' : 0 < fuel') (hfuel : name ∈ c.names → c.need name v < fuel ∧ c.need name v < fuel') :
    Noted.Matches Eq ((Scope.defining self (some c)).follow fuel name v)
      ((Scope.defining self (some (c.add t))).follow fuel' name v) := by
  by_cases hmem : name ∈ c.names
  · -- In both scopes the name leads to what it leads to in the catalog.
    obtain ⟨hneed, hneed'⟩ := hfuel hmem
    have hleads : (Scope.within c).LeadsInto c := (Continues.refl c).leadsInto
    have hbefore : (Scope.defining self (some c)).Shares (.within c) c.names :=
      hc.shares ((Continues.refl c).leadsInto_defining hself) hleads
    have hafter : (Scope.defining self (some (c.add t))).Shares (.within c) c.names :=
      hc.shares ((continues_add ht).leadsInto_defining hself) hleads
    unfold Noted.Matches
    rw [Scope.result_follow_of_shares hbefore fuel hmem,
      Scope.result_follow_of_shares hafter fuel' hmem, hc.result_follow_eq hmem hneed hneed']
    exact .refl _
  · obtain ⟨n, rfl⟩ : ∃ n, fuel = n + 1 := ⟨fuel - 1, by omega⟩
    obtain ⟨n', rfl⟩ : ∃ n, fuel' = n + 1 := ⟨fuel' - 1, by omega⟩
    have hfind : Noted.Matches Eq (liftM ((Scope.defining self (some c)).find name))
        (liftM ((Scope.defining self (some (c.add t))).find name)) := find_matches hname
    rw [Scope.follow, Scope.follow]
    refine hfind.bind fun target htarget => ?_
    -- A name that is not one of the catalog leads to no finished shape.
    cases target with
    | nothing => exact .refl _
    | unfinished => exact .refl _
    | shape s =>
      have hget : c.shapes.get? name = none := by
        rwa [Table.get?_eq_none_iff]
      simp only [Noted.result_liftM, Scope.find, Option.bind_some, hget] at htarget
      split at htarget <;> cases htarget

/-- The check of a value against a descriptor that does not mention the further shape. -/
theorem Reachable.conforms_matches (hc : c.Reachable) (ht : t.name ∉ c.names)
    (hself : self ∉ c.names) {d : Descriptor} (hd : t.name ∉ d.names) (v : Value) :
    Noted.Matches Eq (conforms (.defining self (some c)) v d)
      (conforms (.defining self (some (c.add t))) v d) := by
  have hsize : (Scope.within c).size ≤ (Scope.defining self (some (c.add t))).size :=
    (continues_add ht).length_le
  -- The larger catalog only allows more steps, so its limit serves both sides.
  have hlimit : (Scope.within c).followLimit v
      ≤ (Scope.defining self (some (c.add t))).followLimit v :=
    Scope.followLimit_le hsize (Nat.le_refl _)
  have hpos : 0 < (Scope.within c).followLimit v := Nat.mul_pos (Nat.succ_pos _) (Nat.succ_pos _)
  have hfollow : ∀ name ∈ d.names, ∀ w : Value, w.depth ≤ v.depth →
      Noted.Matches Eq ((Scope.defining self (some c)).follow
          ((Scope.defining self (some c)).followLimit v) name w)
        ((Scope.defining self (some (c.add t))).follow
          ((Scope.defining self (some (c.add t))).followLimit v) name w) := by
    intro name hname w hw
    have hne : name ≠ t.name := fun heq => hd (heq ▸ hname)
    -- A name that is not in the catalog is refused at once, so only its own names need the bound.
    refine hc.follow_matches ht hself hne hpos (Nat.lt_of_lt_of_le hpos hlimit) fun hmem => ?_
    have hneed := need_lt_followLimit hmem hw
    exact ⟨hneed, Nat.lt_of_lt_of_le hneed hlimit⟩
  exact Descriptor.accepts_congr_of_names Noted.composes_matches hfollow

/-- The check of a property whose type does not mention the further shape. -/
theorem Reachable.checkProperty_matches (hc : c.Reachable) (ht : t.name ∉ c.names)
    (hself : self ∉ c.names) (property : String) {d : Descriptor} (hd : t.name ∉ d.names)
    (o : PropertyOptions) :
    Noted.Matches Eq (checkProperty (.defining self (some c)) property d o)
      (checkProperty (.defining self (some (c.add t))) property d o) := by
  unfold checkProperty checkDefault
  refine (Noted.Matches.refl _).bind fun _ _ => ?_
  cases o.default with
  | none => exact .refl _
  | some v => exact (hc.conforms_matches ht hself hd v).bind fun _ _ => .refl _

/-! ### Assembly -/

section Assembly

variable (title property : String)

/-- The schema of a property that names a shape other than the further one. -/
theorem namedSchema_matches {name : String} (hname : name ≠ t.name) (o : PropertyOptions)
    (r : Registry) :
    Noted.Matches Eq ((⟨self, title, some c⟩ : Assembly).namedSchema property name o r)
      ((⟨self, title, some (c.add t)⟩ : Assembly).namedSchema property name o r) := by
  have hfind : Noted.Matches Eq (liftM ((Scope.defining self (some c)).find name))
      (liftM ((Scope.defining self (some (c.add t))).find name)) := find_matches hname
  unfold Assembly.namedSchema
  exact hfind.bind fun _ _ => .refl _

/-- The schema of a property whose type does not mention the further shape. -/
theorem Reachable.schemaOf_matches (hc : c.Reachable) (ht : t.name ∉ c.names)
    (hself : self ∉ c.names) {d : Descriptor} (hd : t.name ∉ d.names) (o : PropertyOptions)
    (r : Registry) :
    Noted.Matches Eq ((⟨self, title, some c⟩ : Assembly).schemaOf property d o r)
      ((⟨self, title, some (c.add t)⟩ : Assembly).schemaOf property d o r) := by
  have hcheck : ∀ (d : Descriptor) (o : PropertyOptions), t.name ∉ d.names → Noted.Matches Eq
      (checkProperty (⟨self, title, some c⟩ : Assembly).scope property d o)
      (checkProperty (⟨self, title, some (c.add t)⟩ : Assembly).scope property d o) :=
    fun d o hd => hc.checkProperty_matches ht hself property hd o
  induction d using Descriptor.induction_parts generalizing o r with
  | scalar kind =>
    unfold Assembly.schemaOf
    exact (hcheck _ o hd).bind fun _ _ => .refl _
  | array item ih =>
    unfold Assembly.schemaOf
    exact (hcheck _ o hd).bind fun _ _ => (ih hd o.forPart r).bind fun _ _ => .refl _
  | map value ih =>
    unfold Assembly.schemaOf
    exact (hcheck _ o hd).bind fun _ _ => (ih hd o.forPart r).bind fun _ _ => .refl _
  | union members ih =>
    -- Each member starts from the registry that the members before it leave.
    have hall : ∀ (ds : List Descriptor) (o : PropertyOptions) (r : Registry),
        (∀ d ∈ ds, d ∈ members) → Noted.Matches Eq
          ((⟨self, title, some c⟩ : Assembly).schemasOf property ds o r)
          ((⟨self, title, some (c.add t)⟩ : Assembly).schemasOf property ds o r) := by
      intro ds
      induction ds with
      | nil => exact fun _ _ _ => .refl _
      | cons d ds ihds =>
        intro o r hmem
        obtain ⟨hd', hds⟩ := List.forall_mem_cons.1 hmem
        have hnames : t.name ∉ d.names := fun hname =>
          hd (Descriptor.mem_names_union.2 ⟨d, hd', hname⟩)
        unfold Assembly.schemasOf
        exact (ih d hd' hnames o r).bind fun x _ => (ihds o x.2 hds).bind fun _ _ => .refl _
    unfold Assembly.schemaOf
    exact (hcheck _ o hd).bind fun _ _ =>
      (hall members o.forPart r fun _ h => h).bind fun _ _ => .refl _
  | named name =>
    have hname : name ≠ t.name := fun heq => hd (heq ▸ List.mem_singleton_self name)
    unfold Assembly.schemaOf
    exact (hcheck _ o hd).bind fun _ _ => namedSchema_matches title property hname o r
  | raw v =>
    unfold Assembly.schemaOf
    exact (hcheck _ o hd).bind fun _ _ => .refl _

/-- The schemas of properties whose types do not mention the further shape. -/
theorem Reachable.propertySchemas_matches (hc : c.Reachable) (ht : t.name ∉ c.names)
    (hself : self ∉ c.names) {specs : List PropertySpec}
    (hspecs : ∀ spec ∈ specs, t.name ∉ spec.descriptor.names) (r : Registry) :
    Noted.Matches Eq ((⟨self, title, some c⟩ : Assembly).propertySchemas specs r)
      ((⟨self, title, some (c.add t)⟩ : Assembly).propertySchemas specs r) := by
  induction specs generalizing r with
  | nil => exact .refl _
  | cons spec specs ih =>
    obtain ⟨hspec, hrest⟩ := List.forall_mem_cons.1 hspecs
    unfold Assembly.propertySchemas
    exact (hc.schemaOf_matches title spec.name ht hself hspec spec.options r).bind fun x _ =>
      (ih hrest x.2).bind fun _ _ => .refl _

/-- The schema for other keys, whose type does not mention the further shape. -/
theorem Reachable.additionalSchema_matches (hc : c.Reachable) (ht : t.name ∉ c.names)
    (hself : self ∉ c.names) {additional : Option (Descriptor × PropertyOptions)}
    (hadditional : ∀ e, additional = some e → t.name ∉ e.1.names) (r : Registry) :
    Noted.Matches Eq ((⟨self, title, some c⟩ : Assembly).additionalSchema additional r)
      ((⟨self, title, some (c.add t)⟩ : Assembly).additionalSchema additional r) := by
  cases additional with
  | none => exact .refl _
  | some e =>
    unfold Assembly.additionalSchema
    exact (hc.schemaOf_matches title "additional_properties" ht hself (hadditional e rfl) e.2 r).bind
      fun _ _ => .refl _

/-- The schema of an object whose declarations do not mention the further shape. -/
theorem Reachable.objectSchema_matches (hc : c.Reachable) (ht : t.name ∉ c.names)
    (hself : self ∉ c.names) {specs : List PropertySpec}
    (hspecs : ∀ spec ∈ specs, t.name ∉ spec.descriptor.names)
    {additional : Option (Descriptor × PropertyOptions)}
    (hadditional : ∀ e, additional = some e → t.name ∉ e.1.names) (options : ObjectOptions)
    (parent : Option Shape) (r : Registry) :
    Noted.Matches Eq
      ((⟨self, title, some c⟩ : Assembly).objectSchema self specs additional options parent r)
      ((⟨self, title, some (c.add t)⟩ : Assembly).objectSchema self specs additional options parent
        r) := by
  have hown : ∀ spec ∈ specs.map (·.withDefaults options), t.name ∉ spec.descriptor.names := by
    rw [List.forall_mem_map]
    exact hspecs
  unfold Assembly.objectSchema
  -- The names and the record are checked without the catalog, before the schemas are assembled.
  refine (Noted.Matches.refl _).bind fun _ _ => ?_
  refine (Noted.Matches.refl _).bind fun all _ => ?_
  refine (Noted.Matches.refl _).bind fun _ _ => ?_
  refine (hc.propertySchemas_matches title ht hself hown r).bind fun x _ => ?_
  exact (hc.additionalSchema_matches title ht hself hadditional x.2).bind fun _ _ => .refl _

end Assembly

end Catalog

end DataShapes
