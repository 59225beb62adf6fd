import DataShapes.Proofs.TypeExpr.Total

/-!
# What a type expression depends on

A registry takes part in the reading of a schema through the keys that are looked up on the way: the
paths of references, and the titles of records.  Two registries give the same type expression
exactly when they give the same names for these keys.

Main definitions:
* `Schema.Consults`: reading the schema looks up the key.

Main statements:
* `TypeExpr.ofSchema_eq_iff`: when two registries give the same type expression.
-/

namespace DataShapes

namespace Schema

/-- Reading the schema looks up the key: the path of a reference, or the title of an object that is
    no map. -/
inductive Consults : Schema → LookupKey → Prop
  | reference (path : String) : Consults (.reference path) (.path path)
  | title {f : Facets} {ps : Option (List (String × Schema))} {i a : Option Schema}
      {ms : Option (List Schema)} {title : String} : f.kind = .object → ¬ IsMapNode f ps a →
      f.title = some title → Consults (.node f ps i a ms) (.title title)
  | next {s m : Schema} {k : LookupKey} : m ∈ s.readNext → Consults m k → Consults s k

/-- Reading a reference looks up its path alone. -/
theorem consults_reference_iff {path : String} {k : LookupKey} :
    Consults (.reference path) k ↔ k = .path path := by
  constructor
  · intro h
    cases h with
    | reference => rfl
    | next hm => simp [readNext] at hm
  · rintro rfl
    exact .reference path

/-- What a node that is no object looks up, its parts do. -/
theorem consults_node_iff {f : Facets} {ps : Option (List (String × Schema))} {i a : Option Schema}
    {ms : Option (List Schema)} {k : LookupKey} (h : f.kind ≠ .object) :
    Consults (.node f ps i a ms) k ↔ ∃ m ∈ (Schema.node f ps i a ms).readNext, Consults m k := by
  constructor
  · intro hk
    cases hk with
    | title hkind => exact absurd hkind h
    | next hm hk => exact ⟨_, hm, hk⟩
  · rintro ⟨m, hm, hk⟩
    exact .next hm hk

/-- What an object looks up, its parts do, or it looks for its own name. -/
theorem consults_object_iff {f : Facets} {ps : Option (List (String × Schema))}
    {i a : Option Schema} {ms : Option (List Schema)} {k : LookupKey} (h : f.kind = .object) :
    Consults (.node f ps i a ms) k ↔
      (¬ IsMapNode f ps a ∧ ∃ title, f.title = some title ∧ k = .title title)
        ∨ ∃ m ∈ (Schema.node f ps i a ms).readNext, Consults m k := by
  constructor
  · intro hk
    cases hk with
    | title _ hmap htitle => exact .inl ⟨hmap, _, htitle, rfl⟩
    | next hm hk => exact .inr ⟨_, hm, hk⟩
  · rintro (⟨hmap, title, htitle, rfl⟩ | ⟨m, hm, hk⟩)
    · exact .title h hmap htitle
    · exact .next hm hk

end Schema

namespace TypeExpr

variable {r₁ r₂ : Registry} {t₁ t₂ : TypeExpr}

/-- Two unions of as many members are equal when their members are. -/
theorem unionOf_eq_iff {es fs : List TypeExpr} (h : es.length = fs.length) :
    unionOf es = unionOf fs ↔ es = fs := by
  refine ⟨fun heq => ?_, fun heq => by rw [heq]⟩
  match es, fs with
  | [], [] => rfl
  | [e], [f] => rw [show e = f from heq]
  | [], _ :: _ => cases h
  | _ :: _, [] => cases h
  | [_], _ :: _ :: _ => simp at h
  | _ :: _ :: _, [_] => simp at h
  | _ :: _ :: _, _ :: _ :: _ => exact (union.injEq _ _).mp heq

/-- Lists that are related item by item to one list are equal when the items are. -/
theorem forall₂_eq_iff {α β : Type} {R S : α → β → Prop} {Q : α → Prop} {xs : List α}
    {ys zs : List β} (hy : List.Forall₂ R xs ys) (hz : List.Forall₂ S xs zs)
    (h : ∀ x ∈ xs, ∀ y z, R x y → S x z → (y = z ↔ Q x)) : ys = zs ↔ ∀ x ∈ xs, Q x := by
  induction hy generalizing zs with
  | nil =>
    cases hz
    simp
  | @cons x y xs ys hxy _ ih =>
    cases hz with
    | @cons _ z _ zs hxz hz =>
      rw [List.cons.injEq, List.forall_mem_cons, h x List.mem_cons_self y z hxy hxz,
        ih hz fun x hx => h x (List.mem_cons_of_mem _ hx)]

/-- What is read for other keys is the same when it is so for the schema of other values. -/
theorem extraOf_eq_iff {s : Schema} {Q : Schema → Prop} {e₁ e₂ : Option TypeExpr}
    (h₁ : extraOf r₁ s = .ok e₁) (h₂ : extraOf r₂ s = .ok e₂)
    (h : ∀ value, s.additional = some value → ∀ u₁ u₂, ofNormalForm r₁ value = .ok u₁ →
      ofNormalForm r₂ value = .ok u₂ → (u₁ = u₂ ↔ Q value)) :
    e₁ = e₂ ↔ ∀ value, s.additional = some value → Q value := by
  -- Both registries read one schema, so the mixed cases contradict each other.
  rcases extraOf_eq_ok_iff.1 h₁ with ⟨hnone, rfl⟩ | ⟨value, u₁, hvalue, hu₁, rfl⟩
  · rcases extraOf_eq_ok_iff.1 h₂ with ⟨-, rfl⟩ | ⟨value, u₂, hvalue, -, -⟩
    · simp [hnone]
    · rw [hnone] at hvalue
      cases hvalue
  · rcases extraOf_eq_ok_iff.1 h₂ with ⟨hnone, -⟩ | ⟨value', u₂, hvalue', hu₂, rfl⟩
    · rw [hnone] at hvalue
      cases hvalue
    · rw [hvalue] at hvalue'
      cases hvalue'
      simp [hvalue, h value hvalue u₁ u₂ hu₁ hu₂]

/-- What an object looks up is the same in two registries when the title is and what its contents
    look up. -/
theorem consults_object_agree_iff {f : Facets} {ps : Option (List (String × Schema))}
    {i a : Option Schema} {ms : Option (List Schema)} (hk : f.kind = .object) :
    (∀ k, (Schema.node f ps i a ms).Consults k → r₁.nameOf k = r₂.nameOf k) ↔
      (¬ Schema.IsMapNode f ps a → f.title.map r₁.inlinedName = f.title.map r₂.inlinedName)
        ∧ (∀ p ∈ ps.getD [], ∀ k, p.2.normalize.Consults k → r₁.nameOf k = r₂.nameOf k)
        ∧ ∀ value, a = some value →
            ∀ k, value.normalize.Consults k → r₁.nameOf k = r₂.nameOf k := by
  have hnext : (Schema.node f ps i a ms).readNext
      = ((ps.getD []).map Prod.snd ++ a.toList).map Schema.normalize := by
    simp [Schema.readNext, hk]
  simp only [Schema.consults_object_iff hk, hnext]
  constructor
  · intro h
    refine ⟨fun hmap => ?_, fun p hp k hk => ?_, fun value hvalue k hk => ?_⟩
    · cases htitle : f.title with
      | none => rfl
      | some title => exact h (.title title) (.inl ⟨hmap, title, htitle, rfl⟩)
    · refine h k (.inr ⟨p.2.normalize, List.mem_map_of_mem ?_, hk⟩)
      exact List.mem_append_left _ (List.mem_map_of_mem hp)
    · refine h k (.inr ⟨value.normalize, List.mem_map_of_mem ?_, hk⟩)
      exact List.mem_append_right _ (Option.mem_toList.2 hvalue)
  · -- A key is the title itself, or is looked up by something that is read next.
    rintro ⟨hname, hps, ha⟩ k (⟨hmap, title, htitle, rfl⟩ | ⟨m, hm, hk⟩)
    · simpa [htitle, Registry.nameOf] using hname hmap
    · obtain ⟨value, hvalue, rfl⟩ := List.mem_map.1 hm
      rcases List.mem_append.1 hvalue with hp | ha'
      · obtain ⟨p, hmem, rfl⟩ := List.mem_map.1 hp
        exact hps p hmem k hk
      · exact ha value (Option.mem_toList.1 ha') k hk

/-- Two registries give the same type expression exactly when they give the same names for all keys
    that are looked up. -/
theorem ofSchema_eq_iff {s : Schema} (h₁ : ofSchema r₁ s = .ok t₁) (h₂ : ofSchema r₂ s = .ok t₂) :
    t₁ = t₂ ↔ ∀ k, s.Consults k → r₁.nameOf k = r₂.nameOf k := by
  induction s using Schema.induction_read generalizing t₁ t₂ with
  | h s ih =>
    cases s with
    | reference path =>
      obtain ⟨u₁, hu₁, rfl⟩ := ofSchema_reference_eq_ok_iff.1 h₁
      obtain ⟨u₂, hu₂, rfl⟩ := ofSchema_reference_eq_ok_iff.1 h₂
      simp [Schema.consults_reference_iff, Registry.nameOf, hu₁, hu₂]
    | node f ps i a ms =>
      rcases f.kind.cases_read with ⟨k, hk⟩ | hk | hk | hk | hk
      · rw [ofSchema_scalar hk] at h₁ h₂
        cases h₁
        cases h₂
        have hkind : f.kind ≠ .object := by
          intro hobject
          rw [hobject] at hk
          cases hk
        have hnext : (Schema.node f ps i a ms).readNext = [] := by
          cases hkind : f.kind <;> simp_all [Schema.readNext, SchemaKind.scalar?]
        simp [Schema.consults_node_iff hkind, hnext]
      · rw [ofSchema_null hk] at h₁ h₂
        cases h₁
        cases h₂
        simp [Schema.consults_node_iff (f := f) (by simp [hk]), Schema.readNext, hk]
      · obtain ⟨item, u₁, rfl, hu₁, rfl⟩ := (ofSchema_array_eq_ok_iff hk).1 h₁
        obtain ⟨item, u₂, hitem, hu₂, rfl⟩ := (ofSchema_array_eq_ok_iff hk).1 h₂
        cases hitem
        rw [sequence.injEq, ih item (by simp [Schema.readNext, hk]) hu₁ hu₂]
        simp [Schema.consults_node_iff (f := f) (by simp [hk]), Schema.readNext, hk]
      · obtain ⟨ts₁, hts₁, rfl⟩ := (ofSchema_union_eq_ok_iff hk).1 h₁
        obtain ⟨ts₂, hts₂, rfl⟩ := (ofSchema_union_eq_ok_iff hk).1 h₂
        have hnext : (Schema.node f ps i a ms).readNext = ms.getD [] := by
          simp [Schema.readNext, hk]
        rw [unionOf_eq_iff (hts₁.length_eq.symm.trans hts₂.length_eq),
          forall₂_eq_iff (Q := fun m => ∀ k, m.Consults k → r₁.nameOf k = r₂.nameOf k) hts₁ hts₂
            fun m hm u₁ u₂ hu₁ hu₂ => ih m (hnext ▸ hm) hu₁ hu₂]
        simp only [Schema.consults_node_iff (f := f) (by simp [hk]), hnext]
        constructor
        · rintro h k ⟨m, hm, hk⟩
          exact h m hm k hk
        · intro h m hm k hk
          exact h k ⟨m, hm, hk⟩
      · obtain ⟨fields₁, extra₁, hfields₁, hextra₁, rfl⟩ := (ofSchema_object_eq_ok_iff hk).1 h₁
        obtain ⟨fields₂, extra₂, hfields₂, hextra₂, rfl⟩ := (ofSchema_object_eq_ok_iff hk).1 h₂
        have hnext : (Schema.node f ps i a ms).readNext
            = ((ps.getD []).map Prod.snd ++ a.toList).map Schema.normalize := by
          simp [Schema.readNext, hk]
        simp only [hnext, List.forall_mem_map, List.forall_mem_append, Option.mem_toList] at ih
        -- Contents are read off their normal forms, so it is these that look keys up.
        let Agree (m : Schema) : Prop := ∀ k, m.normalize.Consults k → r₁.nameOf k = r₂.nameOf k
        have hfields : fields₁ = fields₂ ↔ ∀ p ∈ ps.getD [], Agree p.2 := by
          refine forall₂_eq_iff (Q := fun p => Agree p.2) hfields₁ hfields₂ ?_
          rintro p hp field₁ field₂ ⟨u₁, hu₁, rfl⟩ ⟨u₂, hu₂, rfl⟩
          rw [FieldType.mk.injEq]
          simp only [true_and, and_true]
          exact ih.1 p hp hu₁ hu₂
        have hextra : extra₁ = extra₂ ↔ ∀ value, a = some value → Agree value :=
          extraOf_eq_iff (Q := Agree) hextra₁ hextra₂ fun value hvalue u₁ u₂ hu₁ hu₂ =>
            ih.2 value hvalue hu₁ hu₂
        rw [consults_object_agree_iff hk, ← hfields, ← hextra]
        rcases ofObjectParts_cases hfields₁ hextra₁ with
          ⟨hmap, hnil₁, value₁, hvalue₁, heq₁⟩ | ⟨hmap, heq₁⟩
        · -- A map has no name of its own.
          rcases ofObjectParts_cases hfields₂ hextra₂ with
            ⟨-, hnil₂, value₂, hvalue₂, heq₂⟩ | ⟨hmap', -⟩
          · rw [heq₁, heq₂, hnil₁, hnil₂, hvalue₁, hvalue₂]
            simp [hmap]
          · exact absurd hmap hmap'
        · rcases ofObjectParts_cases hfields₂ hextra₂ with ⟨hmap', -⟩ | ⟨-, heq₂⟩
          · exact absurd hmap' hmap
          · rw [heq₁, heq₂]
            simp [hmap]

end TypeExpr

end DataShapes
