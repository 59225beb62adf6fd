import DataShapes.Proofs.Agreement.Probes
import DataShapes.Proofs.Catalog.Defaults

/-!
# Where checks have an end

A name leads to a shape, and the check of the shape may follow further names for the same value.  A type
shape that contains itself outside every array and map is followed for the same value for ever, whatever
else its declaration says.  A check has an end for every value exactly when it reaches no such shape, and
where it has one, it is found before the limit on following names.

Main definitions:
* `Terminates`: a check ends when enough names may be followed;
* `Shape.Unguarded`: a type shape contains itself outside every array and map;
* `Catalog.Reaches`: the shapes that names in declarations lead to.

Main statements:
* `Catalog.Reachable.follow_congr`: what holds of the checks of shapes that contain themselves, and is
  kept by composition, holds of following any name;
* `Catalog.Reaches.exists_probe`: a value leads a check to each shape that it reaches;
* `Catalog.Reachable.terminates_iff`: when checks end, and that the limit is no hindrance.
-/

namespace DataShapes

/-! ### Following names in a catalog -/

/-- The check of the value ends when enough names may be followed one from the other. -/
def Terminates (scope : Scope) (v : Value) (d : Descriptor) : Prop :=
  ∃ fuel, (d.accepts (scope.follow fuel) v).Ends

/-- The type shape contains itself outside every array and map. -/
def Shape.Unguarded (s : Shape) : Prop := s.name ∈ s.bareNames

namespace Catalog

variable {c : Catalog}

/-- The shapes that the check of a descriptor reaches: those that it names, and those that are named in
    the type, in the properties and for the other keys of a shape that it reaches. -/
inductive Reaches (c : Catalog) (d : Descriptor) : Shape → Prop where
  | named {name : String} {s : Shape} : name ∈ d.names → c.shapes.get? name = some s → Reaches c d s
  | through {s t : Shape} {name : String} : Reaches c d s → name ∈ s.names →
      c.shapes.get? name = some t → Reaches c d t

/-- Names of a reachable catalog belong to its shapes. -/
theorem Reachable.exists_shape (hc : c.Reachable) {name : String} (h : name ∈ c.names) :
    ∃ s ∈ c.definitions, s.name = name := by
  rw [hc.reached.wellNamed.names_eq] at h
  exact List.mem_map.1 h

/-- What holds of the checks of shapes that contain themselves, and is kept by composition, holds of
    following any of some names that lead to each other, when as many names may be followed as are
    needed. -/
theorem Reachable.follow_congr (hc : c.Reachable) {R : (α : Type) → Noted α → Noted α → Prop}
    (hR : Noted.Composes R) {N : String → Prop} (hN : ∀ name, N name → name ∈ c.names)
    (hclosed : ∀ s ∈ c.definitions, N s.name → ∀ name ∈ s.names, N name)
    (hloop : ∀ s ∈ c.definitions, N s.name → s.Unguarded → ∀ fuel fuel' v,
      R Bool ((Scope.within c).follow (fuel + 1) s.name v)
        ((Scope.within c).follow (fuel' + 1) s.name v))
    {fuel fuel' : Nat} {name : String} {v : Value} (hname : N name) (hfuel : c.need name v < fuel)
    (hfuel' : c.need name v < fuel') :
    R Bool ((Scope.within c).follow fuel name v) ((Scope.within c).follow fuel' name v) := by
  induction fuel generalizing fuel' name v with
  | zero => omega
  | succ fuel ih =>
    obtain ⟨fuel', rfl⟩ : ∃ n, fuel' = n + 1 := ⟨fuel' - 1, by omega⟩
    obtain ⟨s, hs, rfl⟩ := hc.exists_shape (hN name hname)
    -- A name that is followed at once leads to an earlier shape, and any other one to a less deep value;
    -- either way less fuel is needed.
    by_cases hguard : s.Unguarded
    · exact hloop s hs hname hguard fuel fuel' v
    · have hbare : ∀ other ∈ s.bareNames, R Bool ((Scope.within c).follow fuel other v)
          ((Scope.within c).follow fuel' other v) := by
        intro other hother
        have hlt : c.need other v < c.need s.name v :=
          need_lt_of_rank_lt (hc.rank_lt hs hguard hother) v
        exact ih (hclosed s hs hname other (Shape.mem_names_of_mem_bareNames hother)) (by omega)
          (by omega)
      have hdeep : ∀ other ∈ s.names, ∀ w, w.depth < v.depth →
          R Bool ((Scope.within c).follow fuel other w) ((Scope.within c).follow fuel' other w) := by
        intro other hother w hw
        have hknown := hclosed s hs hname other hother
        have hlt : c.need other w < c.need s.name v := need_lt_of_depth_lt (hN other hknown) hw
        exact ih hknown (by omega) (by omega)
      rw [follow_name hc.reached.wellNamed hs, follow_name hc.reached.wellNamed hs]
      exact Shape.admits_accepts_congr hR hbare hdeep

/-- Names of a catalog lead to answers, unless they are followed without end. -/
theorem Reachable.succeeds_follow_of_ends (hc : c.Reachable) (fuel : Nat) {name : String}
    (hname : name ∈ c.names) (v : Value) :
    ((Scope.within c).follow fuel name v).Ends → ((Scope.within c).follow fuel name v).Succeeds := by
  induction fuel generalizing name v with
  | zero => exact fun h => absurd rfl h
  | succ fuel ih =>
    obtain ⟨s, hs, rfl⟩ := hc.exists_shape hname
    have hfollow : ∀ other ∈ s.names, ∀ w, ((Scope.within c).follow fuel other w).Ends →
        ((Scope.within c).follow fuel other w).Succeeds :=
      fun other hother w => ih (hc.names_within s hs other hother) w
    rw [follow_name hc.reached.wellNamed hs]
    -- The only way not to succeed is to run out of fuel, which composed checks pass on.
    exact Shape.admits_accepts_of_composes Noted.composes_ends fun other hother w _ =>
      hfollow other hother w

/-- A shape that contains itself gives no answer for any value but null that it admits itself. -/
theorem Reachable.not_succeeds_of_unguarded (hc : c.Reachable) {s : Shape} (hs : s ∈ c.definitions)
    (hloop : s.Unguarded) {v : Value} (hv : v = .null → s.nullable = false) (fuel : Nat) :
    ¬ ((Scope.within c).follow fuel s.name v).Succeeds := by
  induction fuel with
  | zero =>
    rintro ⟨b, hb⟩
    cases hb
  | succ fuel ih =>
    rw [follow_name hc.reached.wellNamed hs]
    intro h
    exact ih (Shape.succeeds_of_mem_bareNames hv h s.name hloop)

/-- When as many names may be followed as are needed, more of them make no difference. -/
theorem Reachable.result_follow_eq (hc : c.Reachable) {fuel fuel' : Nat} {name : String} {v : Value}
    (hname : name ∈ c.names) (hfuel : c.need name v < fuel) (hfuel' : c.need name v < fuel') :
    ((Scope.within c).follow fuel name v).result = ((Scope.within c).follow fuel' name v).result := by
  refine hc.follow_congr Noted.composes_result (N := (· ∈ c.names)) (fun _ h => h)
    (fun s hs _ => hc.names_within s hs) (fun s hs hs' hloop m n v => ?_) hname hfuel hfuel'
  by_cases hnull : v = .null → s.nullable = false
  · -- Neither gives an answer, so neither has an end.
    have hendless : ∀ fuel, ((Scope.within c).follow fuel s.name v).result = .error .endless := by
      intro fuel
      by_contra hends
      exact hc.not_succeeds_of_unguarded hs hloop hnull fuel
        (hc.succeeds_follow_of_ends fuel hs' v hends)
    rw [hendless, hendless]
  · rw [Classical.not_imp, Bool.not_eq_false] at hnull
    obtain ⟨rfl, hnullable⟩ := hnull
    rw [follow_name hc.reached.wellNamed hs, follow_name hc.reached.wellNamed hs,
      Shape.admits_null hnullable, Shape.admits_null hnullable]

/-! ### Checks of descriptors -/

variable {d : Descriptor}

/-- What a descriptor reaches is a shape of the catalog. -/
theorem Reaches.mem_definitions (hc : c.Reachable) {s : Shape} (h : c.Reaches d s) :
    s ∈ c.definitions := by
  cases h with
  | named _ hget => exact (hc.reached.wellNamed.get?_eq_some_iff.1 hget).1
  | through _ _ hget => exact (hc.reached.wellNamed.get?_eq_some_iff.1 hget).1

/-- Some value leads the check of a descriptor to a shape that it reaches, with a given value. -/
theorem Reaches.exists_probe (hc : c.Reachable) {s : Shape} (h : c.Reaches d s) {w : Value}
    (hw : w ≠ .null) : ∃ v, ∀ fuel, (d.accepts ((Scope.within c).follow fuel) v).Succeeds →
      ∃ fuel', ((Scope.within c).follow fuel' s.name w).Succeeds := by
  induction h generalizing w with
  | @named name s hname hget =>
    obtain ⟨-, rfl⟩ := hc.reached.wellNamed.get?_eq_some_iff.1 hget
    obtain ⟨v, -, hv⟩ := Descriptor.exists_probe hname hw
    exact ⟨v, fun fuel h => ⟨fuel, hv _ h⟩⟩
  | @through s t name hreach hname hget ih =>
    obtain ⟨-, rfl⟩ := hc.reached.wellNamed.get?_eq_some_iff.1 hget
    have hs := hreach.mem_definitions hc
    -- The value for the shape further on is packed into one for the shape before it.
    obtain ⟨x, hx, hprobe⟩ :=
      Shape.exists_probe (hc.reached.distinctProperties s hs).specs hname hw
    obtain ⟨v, hv⟩ := ih hx
    refine ⟨v, fun fuel h => ?_⟩
    obtain ⟨fuel', hfuel'⟩ := hv fuel h
    cases fuel' with
    | zero =>
      obtain ⟨b, hb⟩ := hfuel'
      cases hb
    | succ fuel' =>
      rw [follow_name hc.reached.wellNamed hs] at hfuel'
      exact ⟨fuel', hprobe _ hfuel'⟩

/-- A check within a catalog gives a result unless it runs out of fuel, since all names are there. -/
theorem Reachable.succeeds_of_ends (hc : c.Reachable) (hnames : ∀ name ∈ d.names, name ∈ c.names)
    {fuel : Nat} {v : Value} (h : (d.accepts ((Scope.within c).follow fuel) v).Ends) :
    (d.accepts ((Scope.within c).follow fuel) v).Succeeds := by
  have hfollow : ∀ name ∈ d.names, ∀ w, ((Scope.within c).follow fuel name w).Ends →
      ((Scope.within c).follow fuel name w).Succeeds :=
    fun name hname w => hc.succeeds_follow_of_ends fuel (hnames name hname) w
  exact Descriptor.accepts_of_composes Noted.composes_ends (fun name hname w _ => hfollow name hname w) h

/-- A check that reaches no shape that contains itself gives an answer within the limit. -/
theorem Reachable.succeeds_conforms (hc : c.Reachable) (hnames : ∀ name ∈ d.names, name ∈ c.names)
    (hguard : ∀ s, c.Reaches d s → ¬ s.Unguarded) (v : Value) :
    (conforms (.within c) v d).Succeeds := by
  -- The names that the descriptor reaches lead to each other and to no others.
  let N : String → Prop := fun name => ∃ s, c.Reaches d s ∧ s.name = name
  have hnamed := hc.reached.wellNamed
  have hN : ∀ name, N name → name ∈ c.names := by
    rintro name ⟨s, hs, rfl⟩
    rw [hnamed.names_eq]
    exact List.mem_map_of_mem (hs.mem_definitions hc)
  have hunique : ∀ s ∈ c.definitions, N s.name → c.Reaches d s := by
    rintro s hs ⟨t, ht, heq⟩
    have hsame : t = s := by
      have hget : c.shapes.get? s.name = some t :=
        hnamed.get?_eq_some_iff.2 ⟨ht.mem_definitions hc, heq⟩
      rw [hnamed.get?_eq_some_iff.2 ⟨hs, rfl⟩] at hget
      exact (Option.some.inj hget).symm
    exact hsame ▸ ht
  have hstep : ∀ name ∈ c.names, (∀ s, c.shapes.get? name = some s → c.Reaches d s) → N name := by
    intro name hname hreach
    obtain ⟨s, hs, rfl⟩ := hc.exists_shape hname
    exact ⟨s, hreach s (hnamed.get?_eq_some_iff.2 ⟨hs, rfl⟩), rfl⟩
  have hfollow : ∀ name ∈ d.names, ∀ w : Value, w.depth ≤ v.depth →
      ((Scope.within c).follow ((Scope.within c).followLimit v) name w).Succeeds := by
    intro name hname w hw
    have hknown : N name :=
      hstep name (hnames name hname) fun s hget => .named hname hget
    have hlimit := need_lt_followLimit (hnames name hname) hw
    refine hc.follow_congr Noted.composes_succeeds hN (fun s hs hsN other hother => ?_)
      (fun s hs hsN hloop => absurd hloop (hguard s (hunique s hs hsN))) hknown hlimit hlimit
    exact hstep other (hc.names_within s hs other hother) fun t hget =>
      .through (hunique s hs hsN) hother hget
  exact Descriptor.accepts_of_composes Noted.composes_succeeds hfollow

/-- The limit on following names is beyond every number that is enough. -/
theorem Reachable.result_conforms_eq (hc : c.Reachable) (hnames : ∀ name ∈ d.names, name ∈ c.names)
    {fuel : Nat} {v : Value} (h : (d.accepts ((Scope.within c).follow fuel) v).Ends) :
    (conforms (.within c) v d).result = (d.accepts ((Scope.within c).follow fuel) v).result := by
  let limit := (Scope.within c).followLimit v
  -- What was enough is still enough with the limit on top of it.
  have hleads : (Scope.within c).LeadsInto c := (Continues.refl c).leadsInto
  have hshares : (Scope.within c).Shares (.within c) c.names := hc.shares hleads hleads
  have hpersists : ∀ name ∈ d.names, ∀ w, ((Scope.within c).follow fuel name w).Persists
      ((Scope.within c).follow (max fuel limit) name w) := fun name hname w =>
    Scope.follow_persists hshares (Nat.le_max_left _ _) (hnames name hname) w
  have hmore : (d.accepts ((Scope.within c).follow (max fuel limit)) v).result
      = (d.accepts ((Scope.within c).follow fuel) v).result := by
    obtain ⟨b, hb⟩ := hc.succeeds_of_ends hnames h
    rw [hb]
    exact Descriptor.accepts_congr_of_names Noted.composes_persists
      (fun name hname w _ => hpersists name hname w) b hb
  -- Beyond the limit nothing changes any more.
  have hfollow : ∀ name ∈ d.names, ∀ w : Value, w.depth ≤ v.depth →
      ((Scope.within c).follow limit name w).result
        = ((Scope.within c).follow (max fuel limit) name w).result := by
    intro name hname w hw
    have hlimit : c.need name w < limit := need_lt_followLimit (hnames name hname) hw
    exact hc.result_follow_eq (hnames name hname) hlimit (Nat.lt_of_lt_of_le hlimit (Nat.le_max_right _ _))
  rw [← hmore]
  exact Descriptor.accepts_congr_of_names Noted.composes_result hfollow

/-! ### Nests and mazes -/

namespace Nests

/-- Nests are lists of nests. -/
def nests : TypeDeclaration := { name := .str "Nest", type := .descriptor (.array (.named "Nest")) }

/-- Mazes are texts or mazes. -/
def mazes : TypeDeclaration :=
  { name := .str "Maze", type := .descriptor (.union [.scalar .string, .named "Maze"]) }

/-- What the definition of nests says. -/
def nestArguments : TypeArguments := ⟨"Nest", "Nest", .array (.named "Nest"), {}⟩

/-- What the definition of mazes says. -/
def mazeArguments : TypeArguments := ⟨"Maze", "Maze", .union [.scalar .string, .named "Maze"], {}⟩

/-- The shape of nests. -/
def nest : Shape := nestArguments.shape {} (.sequence (.named "Nest"))

/-- The catalog of nests. -/
def started : Catalog := ({} : Catalog).add nest

/-- The shape of mazes. -/
def maze : Shape := mazeArguments.shape started (TypeExpr.unionOf [.primitive .string, .named "Maze"])

/-- The catalog of nests and mazes. -/
def catalog : Catalog := started.add maze

theorem defineType_nests : (({} : Catalog).defineType nests).result = .ok (started, nest) :=
  defineType_eq_ok_iff.2 ⟨nestArguments, _, rfl, rfl, (TypeExpr.ofSchema_array_eq_ok_iff rfl).2
    ⟨_, _, rfl, TypeExpr.ofSchema_reference_eq_ok_iff.2 ⟨"Nest", rfl, rfl⟩, rfl⟩, rfl, rfl⟩

/-- Mazes are unions with themselves, so the check of a value comes back to it without a step into it. -/
theorem defineType_mazes : (started.defineType mazes).result = .ok (catalog, maze) :=
  defineType_eq_ok_iff.2 ⟨mazeArguments, _, rfl, rfl, (TypeExpr.ofSchema_union_eq_ok_iff rfl).2
    ⟨_, .cons (TypeExpr.ofSchema_scalar rfl)
      (.cons (TypeExpr.ofSchema_reference_eq_ok_iff.2 ⟨"Maze", rfl, rfl⟩) .nil), rfl⟩, rfl, rfl⟩

theorem reachable_catalog : catalog.Reachable := by
  refine ⟨"", [.type nests, .type mazes], ?_⟩
  have hnests : ({} : Catalog).step (fun _ => none) (.type nests) = started := by
    rw [Catalog.step, define, defineType_nests]
  rw [after_cons, after_cons, after_nil, hnests, Catalog.step, define, defineType_mazes]

/-- Nests lead to nests only. -/
theorem eq_nest_of_reaches {s : Shape} (h : catalog.Reaches (.named "Nest") s) : s = nest := by
  have hnest : catalog.shapes.get? "Nest" = some nest := rfl
  induction h with
  | @named name s hname hget =>
    rw [Descriptor.names, List.mem_singleton] at hname
    rw [hname, hnest] at hget
    exact (Option.some.inj hget).symm
  | @through s t name _ hname hget ih =>
    have hnames : nest.names = ["Nest"] := rfl
    rw [ih, hnames, List.mem_singleton] at hname
    rw [hname, hnest] at hget
    exact (Option.some.inj hget).symm

end Nests

/-- Where checks end.  In a reachable catalog, take a descriptor whose names are names of the catalog.
    Its check ends for every value exactly when it reaches no type shape that contains itself outside
    every array and map.  And the check stops at its limit on following names only where no number of
    names would be enough. -/
theorem Reachable.terminates_iff (hc : c.Reachable) {d : Descriptor}
    (hnames : ∀ name ∈ d.names, name ∈ c.names) :
    ((∀ v, Terminates (.within c) v d) ↔ ∀ s, c.Reaches d s → ¬ s.Unguarded)
    ∧ ∀ v x, x ≠ .error .endless → ((conforms (.within c) v d).result = x ↔
        ∃ fuel, (d.accepts ((Scope.within c).follow fuel) v).result = x) := by
  refine ⟨⟨fun hends s hs hloop => ?_, fun hguard v => ?_⟩, fun v x hx => ⟨fun h => ?_, ?_⟩⟩
  · -- The probe leads the check to the shape, which has no answer for it with any fuel.
    obtain ⟨v, hv⟩ := hs.exists_probe hc (w := .bool true) nofun
    obtain ⟨fuel, hfuel⟩ := hends v
    obtain ⟨fuel', hfuel'⟩ := hv fuel (hc.succeeds_of_ends hnames hfuel)
    exact hc.not_succeeds_of_unguarded (v := .bool true) (hs.mem_definitions hc) hloop nofun fuel' hfuel'
  · exact ⟨_, (hc.succeeds_conforms hnames hguard v).ends⟩
  · exact ⟨_, h⟩
  · rintro ⟨fuel, rfl⟩
    exact hc.result_conforms_eq hnames hx

/-- Checks against nests end, checks against maps of mazes need not. -/
theorem Reachable.terminates_iff_nests :
    Nests.catalog.Reachable ∧ (∀ v, Terminates (.within Nests.catalog) v (.named "Nest"))
      ∧ ¬ ∀ v, Terminates (.within Nests.catalog) v (.map (.named "Maze")) := by
  have hc := Nests.reachable_catalog
  obtain ⟨hnests, -⟩ := Reachable.terminates_iff hc (d := .named "Nest") (by decide)
  obtain ⟨hmazes, -⟩ := Reachable.terminates_iff hc (d := .map (.named "Maze")) (by decide)
  have hguarded : ¬ Nests.nest.Unguarded := List.not_mem_nil
  have hloop : Nests.maze.Unguarded := List.mem_singleton.2 rfl
  refine ⟨hc, hnests.2 fun s hs => Nests.eq_nest_of_reaches hs ▸ hguarded, fun h => ?_⟩
  exact hmazes.1 h Nests.maze (.named (List.mem_singleton.2 rfl) rfl) hloop

end Catalog

end DataShapes
