import DataShapes.Proofs.Agreement.Conformance
import DataShapes.Proofs.Agreement.Probes
import DataShapes.Proofs.Catalog.Lineage

/-!
# Defaults stay valid

A default is checked once, when its declaration is assembled: against the catalog of that moment, and
in a scope where one name means the shape that is being defined.  A type that does not mention this
name leads to finished shapes alone.  Later definitions only add shapes behind them, so the check
ends in the same way ever after, also where the declaration has been inherited and is not checked
again.

Main definitions:
* `Noted.Persists`: a computation gives whatever another one gives;
* `Scope.Shares`, `Scope.LeadsInto`: two scopes lead to the same finished shapes, and one leads to those
  of a catalog;
* `Catalog.Continues`: a catalog holds the shapes of another one in front;
* `Catalog.Declares`: the declarations of a shape, each with the name of the shape that made it.

Main statements:
* `Scope.follow_persists_of_le`: an answer stays the same when more names may be followed;
* `Scope.follow_persists`, `conforms_persists`: checks that succeed still do in a larger scope;
* `Assembly.conforms_of_check`: a default that was accepted conforms in every later catalog;
* `Catalog.Reachable.defaults_stay_valid`: all defaults of all shapes stay valid.
-/

namespace DataShapes

/-! ### Checks that persist -/

namespace Noted

variable {α β : Type}

/-- What the first computation gives the second one gives as well. -/
def Persists (x y : Noted α) : Prop := ∀ a, x.result = .ok a → y.result = .ok a

/-- Persisting is kept by all the ways in which checks are put together. -/
theorem composes_persists : Composes fun _ x y => Persists x y where
  succeed _ := fun _ h => h
  bind h hf := by
    intro b hb
    rw [result_bind, Outcome.bind_eq_ok_iff] at hb ⊢
    obtain ⟨a, ha, hb⟩ := hb
    exact ⟨a, h a ha, hf a ha b hb⟩

end Noted

/-! ### Larger scopes -/

namespace Scope

variable {scope scope' : Scope} {names : List String}

/-- Each of the names leads to the same finished shape in both scopes, and the names in the
    declarations of this shape are among the names. -/
def Shares (scope scope' : Scope) (names : List String) : Prop :=
  ∀ name ∈ names, ∃ s : Shape, scope.find name = .ok (.shape s) ∧ scope'.find name = .ok (.shape s)
    ∧ ∀ other ∈ s.names, other ∈ names

/-- The names of the catalog lead to its shapes. -/
def LeadsInto (scope : Scope) (c : Catalog) : Prop :=
  ∀ name s, c.shapes.get? name = some s → scope.find name = .ok (.shape s)

/-- What following a name gives, it gives as well when more names may be followed. -/
theorem follow_persists_of_le {fuel fuel' : Nat} (h : fuel ≤ fuel') (name : String) (v : Value) :
    (scope.follow fuel name v).Persists (scope.follow fuel' name v) := by
  induction fuel generalizing fuel' name v with
  | zero =>
    -- No name may be followed, so nothing is given.
    intro b hb
    cases hb
  | succ fuel ih =>
    obtain ⟨fuel', rfl⟩ : ∃ n, fuel' = n + 1 := ⟨fuel' - 1, by omega⟩
    rw [follow, follow]
    refine Noted.composes_persists.bind (fun _ h => h) fun target _ => ?_
    cases target with
    | nothing => exact fun _ h => h
    | unfinished => exact fun _ h => h
    | shape s =>
      exact Shape.admits_accepts_congr_of_names Noted.composes_persists fun other _ w _ =>
        ih (by omega) other w

/-- Scopes that share a name follow it with the same result. -/
theorem result_follow_of_shares (h : scope.Shares scope' names) (fuel : Nat) {name : String}
    (hname : name ∈ names) (v : Value) :
    (scope.follow fuel name v).result = (scope'.follow fuel name v).result := by
  induction fuel generalizing name v with
  | zero => rfl
  | succ fuel ih =>
    -- Both scopes lead to one shape, and to names that they share again.
    obtain ⟨s, hfind, hfind', hnames⟩ := h name hname
    have hfollow : ∀ other ∈ s.names, ∀ w,
        (scope.follow fuel other w).result = (scope'.follow fuel other w).result :=
      fun other hother w => ih (hnames other hother) w
    rw [follow_of_find hfind, follow_of_find hfind']
    exact Shape.admits_accepts_congr_of_names Noted.composes_result fun other hother w _ =>
      hfollow other hother w

/-- Following a name that both scopes share persists when at least as many names may be followed. -/
theorem follow_persists (h : scope.Shares scope' names) {fuel fuel' : Nat} (hfuel : fuel ≤ fuel')
    {name : String} (hname : name ∈ names) (v : Value) :
    (scope.follow fuel name v).Persists (scope'.follow fuel' name v) := by
  intro b hb
  rw [← result_follow_of_shares h fuel' hname v]
  exact follow_persists_of_le hfuel name v b hb

/-- The check of a value persists in a larger scope that shares the names of the descriptor. -/
theorem conforms_persists (h : scope.Shares scope' names) (hsize : scope.size ≤ scope'.size)
    {d : Descriptor} (hd : ∀ name ∈ d.names, name ∈ names) (v : Value) :
    (conforms scope v d).Persists (conforms scope' v d) := by
  have hlimit : scope.followLimit v ≤ scope'.followLimit v :=
    followLimit_le hsize (Nat.le_refl _)
  have hfollow : ∀ name ∈ d.names, ∀ w, (scope.follow (scope.followLimit v) name w).Persists
      (scope'.follow (scope'.followLimit v) name w) :=
    fun name hname w => follow_persists h hlimit (hd name hname) w
  exact Descriptor.accepts_congr_of_names Noted.composes_persists fun name hname w _ =>
    hfollow name hname w

end Scope

namespace Catalog

variable {c before : Catalog}

/-- The catalog holds the shapes of the other one, in front of its own. -/
def Continues (c before : Catalog) : Prop := before.shapes <+: c.shapes

theorem Continues.refl (c : Catalog) : c.Continues c := List.prefix_refl _

/-- A catalog continues all those that the ones before it continue. -/
theorem Continues.trans {between : Catalog} (h : c.Continues between)
    (h' : between.Continues before) : c.Continues before := List.IsPrefix.trans h' h

/-- What a name means in a catalog it means in every one that continues it. -/
theorem Continues.get? (h : c.Continues before) {name : String} {s : Shape}
    (hs : before.shapes.get? name = some s) : c.shapes.get? name = some s := by
  obtain ⟨later, heq⟩ := h
  rw [← heq, Table.get?_append, hs, Option.some_or]

/-- A catalog with one more shape continues the catalog without it. -/
theorem continues_add {s : Shape} (h : s.name ∉ c.names) : (c.add s).Continues c :=
  ⟨[(s.name, s)], (shapes_add h).symm⟩

/-- Definitions continue a catalog. -/
theorem continues_after (c : Catalog) (ds : List Definition) : (c.after ds).Continues c := by
  induction ds generalizing c with
  | nil => exact .refl c
  | cons d ds ih =>
    rw [after_cons]
    refine (ih _).trans ?_
    rcases step_cases c (fun _ => none) d with heq | ⟨s, heq, hs⟩
    · rw [heq]
      exact .refl c
    · rw [heq]
      exact continues_add hs.name_not_mem

/-- Names lead to the same shapes in a catalog and in one that continues it. -/
theorem Continues.leadsInto (h : c.Continues before) : (Scope.within c).LeadsInto before :=
  fun _ _ hs => Scope.find_within_of_get? (h.get? hs)

/-- So it is from a definition for another name. -/
theorem Continues.leadsInto_defining (h : c.Continues before) {self : String}
    (hself : self ∉ before.names) : (Scope.defining self (some c)).LeadsInto before := by
  intro name s hs
  have hmem : name ∈ before.names := by
    rw [names, Table.mem_keys_iff, hs]
    rfl
  have hne : name ≠ self := fun heq => hself (heq ▸ hmem)
  simp [Scope.find, hne, h.get? hs]

/-- Scopes in which the names of a reachable catalog lead to its shapes share all these names. -/
theorem Reachable.shares (hbefore : before.Reachable) {scope scope' : Scope}
    (h : scope.LeadsInto before) (h' : scope'.LeadsInto before) :
    scope.Shares scope' before.names := by
  intro name hname
  obtain ⟨s, hs⟩ : ∃ s, before.shapes.get? name = some s :=
    Option.isSome_iff_exists.1 ((Table.mem_keys_iff _ _).1 hname)
  have hdefinition : s ∈ before.definitions := List.mem_map_of_mem (Table.mem_of_get? hs)
  exact ⟨s, h name s hs, h' name s hs, hbefore.names_within s hdefinition⟩

end Catalog

/-- A default that was accepted conforms in every catalog that continues the one it was checked in,
    when its type does not mention the shape that was being defined. -/
theorem Assembly.conforms_of_check {a : Assembly} {before c : Catalog} (ha : a.catalog = some before)
    (hself : a.name ∉ before.names) (hbefore : before.Reachable) (hc : c.Continues before)
    {property : String} {d : Descriptor} {o : PropertyOptions}
    (h : a.check property d o = .ok ()) (hd : a.name ∉ d.names) {v : Value}
    (hv : o.default = some v) : (conforms (.within c) v d).result = .ok true := by
  have hchecked : (conforms (.defining a.name (some before)) v d).result = .ok true := by
    have hproperty := checkProperty_of_check h
    rw [scope, ha] at hproperty
    exact (checkProperty_eq_ok_iff.1 hproperty).2 v hv
  -- The type does not mention the shape under definition, so all of its names were in the catalog.
  have hnames : ∀ name ∈ d.names, name ∈ before.names := by
    intro name hname
    have hknown := ((a.of_check h).2 name hname).1
    exact (Catalog.mem_names_of_knows ha hknown).resolve_left fun heq => hd (heq ▸ hname)
  have hsize : (Scope.defining a.name (some before)).size ≤ (Scope.within c).size := hc.length_le
  have hshares : (Scope.defining a.name (some before)).Shares (.within c) before.names :=
    hbefore.shares ((Catalog.Continues.refl before).leadsInto_defining hself) hc.leadsInto
  exact Scope.conforms_persists hshares hsize hnames v true hchecked

/-! ### Declarations and their makers -/

/-- The definition was made on the way to the catalog. -/
structure Generation.Within (g : Generation) (c : Catalog) : Prop where
  reachable : g.catalog.Reachable
  continues : c.Continues (g.catalog.add g.shape)

namespace Catalog

variable {c : Catalog}

/-- Every object shape of a reachable catalog has a lineage in it. -/
theorem Reachable.exists_lineage (hc : c.Reachable) : ∀ s ∈ c.definitions, s.isObject = true →
    ∃ gs, Lineage gs s ∧ ∀ g ∈ gs, g.Within c := by
  -- A generation within a catalog is within every larger one.
  have hkeep : ∀ {c : Catalog} {t : Shape} {gs : List Generation}, t.name ∉ c.names →
      (∀ g ∈ gs, g.Within c) → ∀ g ∈ gs, g.Within (c.add t) := by
    intro c t gs ht hgs g hg
    exact ⟨(hgs g hg).reachable, (continues_add ht).trans (hgs g hg).continues⟩
  refine hc.forall_defined (P := fun c s => s.isObject = true → ∃ gs, Lineage gs s
    ∧ ∀ g ∈ gs, g.Within c) ?_ ?_
  · intro c s t _ ht ih hobject
    obtain ⟨gs, hgs, hwithin⟩ := ih hobject
    exact ⟨gs, hgs, hkeep ht.name_not_mem hwithin⟩
  · intro c d s hc hbefore hdefine hobject
    obtain ⟨-, hfinish⟩ := finishes_of_define hdefine
    cases d with
    | type d =>
      obtain ⟨args, t, -, -, -, rfl, -⟩ := defineType_eq_ok_iff.1 hdefine
      cases hobject
    | object d =>
      obtain ⟨args, t, hargs, haccepted, ht, rfl, -⟩ := defineObject_eq_ok_iff.1 hdefine
      have hmade : Generation.Made ⟨c, args, args.shape c t⟩ := ⟨_, d, hargs, hdefine⟩
      have hlast : Generation.Within ⟨c, args, args.shape c t⟩ (c.add (args.shape c t)) :=
        ⟨hc, .refl _⟩
      obtain ⟨-, -, -, -, hparent, -⟩ := objectArguments_eq_ok_iff.1 hargs
      cases hp : args.parent with
      | none => exact ⟨_, .root _ hmade hp, by simpa using hlast⟩
      | some p =>
        obtain ⟨hmem, hpobject⟩ := mem_of_extended (hp ▸ hparent)
        obtain ⟨gs, hgs, hwithin⟩ := hbefore p (by simpa using hmem) hpobject
        refine ⟨_, .extend _ hgs hmade hp, ?_⟩
        simp only [List.forall_mem_append, List.mem_singleton, forall_eq]
        exact ⟨hkeep hfinish.name_not_mem hwithin, hlast⟩

/-- The shape of the catalog has the declaration, and the shape of the given name made it.  A shape
    declares its own type, and itself what values other keys have; a property was declared by the most
    derived of the definitions that the shape goes back to. -/
inductive Declares (c : Catalog) (s : Shape) : String → Descriptor → PropertyOptions → Prop
  | type {d : Descriptor} {o : PropertyOptions} : s.body = .type d o → Declares c s s.name d o
  | additional {d : Descriptor} {o : PropertyOptions} :
      s.additional = some (d, o) → Declares c s s.name d o
  | property {gs : List Generation} {g : Generation} {spec : PropertySpec} : Lineage gs s →
      (∀ g ∈ gs, g.Within c) → MostDerived gs g spec →
      Declares c s g.shape.name spec.descriptor spec.options

/-- Some shape made the declaration of each property. -/
theorem Reachable.exists_declares (hc : c.Reachable) {s : Shape} (hs : s ∈ c.definitions)
    {spec : PropertySpec} (hspec : spec ∈ s.specs) :
    ∃ maker, c.Declares s maker spec.descriptor spec.options := by
  obtain ⟨gs, hgs, hwithin⟩ := hc.exists_lineage s hs (Shape.isObject_of_mem_specs hspec)
  obtain ⟨g, hg⟩ := hgs.exists_mostDerived hspec
  exact ⟨g.shape.name, .property hgs hwithin hg⟩

/-- Every declaration of a shape was checked by the definition of the shape that made it, in a
    catalog that the present one continues. -/
theorem Reachable.exists_check (hc : c.Reachable) {s : Shape} (hs : s ∈ c.definitions)
    {maker : String} {d : Descriptor} {o : PropertyOptions} (h : c.Declares s maker d o) :
    ∃ (before : Catalog) (a : Assembly) (property : String), a.name = maker
      ∧ a.catalog = some before ∧ maker ∉ before.names ∧ before.Reachable ∧ c.Continues before
      ∧ a.check property d o = .ok () := by
  have horigin : ∃ before : Catalog, before.Reachable ∧ before.FinishesWithin s
      ∧ c.Continues before := by
    obtain ⟨before, later, hbefore, hfinish, -, heq⟩ := hc.origin hs
    exact ⟨before, hbefore, hfinish, ⟨_, heq.symm⟩⟩
  cases h with
  | type hbody =>
    obtain ⟨before, hbefore, hfinish, hcontinues⟩ := horigin
    have hnew := Finishes.name_not_mem hfinish
    cases hfinish with
    | type args t _ _ haccepted _ =>
      cases hbody
      exact ⟨before, args.assembly before, args.name, rfl, rfl, hnew, hbefore, hcontinues,
        haccepted⟩
    | object args t _ _ _ _ _ => cases hbody
  | additional hadditional =>
    obtain ⟨before, hbefore, hfinish, hcontinues⟩ := horigin
    have hnew := Finishes.name_not_mem hfinish
    cases hfinish with
    | type args t _ _ _ _ => cases hadditional
    | object args t _ _ _ haccepted _ =>
      exact ⟨before, args.assembly before, "additional_properties", rfl, rfl, hnew, hbefore,
        hcontinues, haccepted.additional (d, o) hadditional⟩
  | @property gs g spec hgs hwithin hg =>
    -- The lineage may be long: the check was made by the generation that decides.
    obtain ⟨hspec, earlier, later, rfl, -⟩ := hg
    have hg : g ∈ earlier ++ g :: later := List.mem_append_right _ List.mem_cons_self
    obtain ⟨hbefore, hcontinues⟩ := hwithin g hg
    have hmade : g.Made := hgs.made g hg
    obtain ⟨haccepted, -⟩ := hmade.cases
    have hname : g.arguments.name = g.shape.name := hmade.name.symm
    have hnew : g.shape.name ∉ g.catalog.names := hmade.name_not_mem
    exact ⟨g.catalog, g.arguments.assembly g.catalog, spec.name, hname, rfl, hnew, hbefore,
      hcontinues.trans (continues_add hnew), haccepted.specs spec hspec⟩

/-- Accepted defaults stay valid.  Some shape made each declaration of a shape of a reachable
    catalog.  When the declaration has a default and its type does not mention the shape that made
    it, the default conforms to the type, in this catalog and after any further definitions. -/
theorem Reachable.defaults_stay_valid (hc : c.Reachable) {s : Shape} (hs : s ∈ c.definitions) :
    (∀ spec ∈ s.specs, ∃ maker, c.Declares s maker spec.descriptor spec.options)
    ∧ ∀ maker d o v, c.Declares s maker d o → o.default = some v → maker ∉ d.names →
      ∀ ds : List Definition, (conforms (.within (c.after ds)) v d).result = .ok true := by
  refine ⟨fun spec hspec => hc.exists_declares hs hspec, fun maker d o v hd hv hmaker ds => ?_⟩
  obtain ⟨before, a, property, rfl, ha, hnew, hbefore, hcontinues, hcheck⟩ := hc.exists_check hs hd
  have hlater : (c.after ds).Continues before := (continues_after c ds).trans hcontinues
  exact Assembly.conforms_of_check ha hnew hbefore hlater hcheck hmaker hv

/-- Pages inherit the tags of entities, and no tags stays a valid default for them. -/
theorem Reachable.defaults_stay_valid_pages :
    Pages.catalog.Reachable ∧ Pages.page ∈ Pages.catalog.definitions
      ∧ Pages.catalog.Declares Pages.page "Entity" (.array (.scalar .string))
        { default := some (.list []), required := some true, inline := some false }
      ∧ ∀ ds : List Definition, (conforms (.within (Pages.catalog.after ds)) (.list [])
        (.array (.scalar .string))).result = .ok true := by
  have hc := Pages.reachable_catalog
  have hs := Pages.page_mem_definitions
  obtain ⟨-, hdefaults⟩ := Reachable.defaults_stay_valid hc hs
  -- The tags are declared by entities, two generations back from here.
  have hentities : Pages.entityGeneration.Within Pages.catalog :=
    ⟨⟨"", [], rfl⟩, continues_add (by decide)⟩
  have hpages : Pages.pageGeneration.Within Pages.catalog := by
    refine ⟨⟨"", [.object Pages.entities], ?_⟩, .refl _⟩
    rw [after_cons, after_nil, Catalog.step, define, Pages.defineObject_entities]
    rfl
  have hdeclares : Pages.catalog.Declares Pages.page "Entity" (.array (.scalar .string))
      { default := some (.list []), required := some true, inline := some false } :=
    .property Pages.lineage_page (by simpa using ⟨hentities, hpages⟩) Pages.mostDerived_tags
  exact ⟨hc, hs, hdeclares, hdefaults _ _ _ _ hdeclares rfl (by decide)⟩

end Catalog

end DataShapes
