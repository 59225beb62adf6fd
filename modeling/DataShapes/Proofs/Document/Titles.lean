import DataShapes.Document.Build
import DataShapes.Proofs.Catalog.Meaning
import DataShapes.Proofs.Files.Paths

/-!
# Titles read off references

A reference to a title is a path, and a title is read off it in two ways.  The check of a document drops what every path
starts with, so it gets each title back.  The title of a reference itself is what stands behind the last slash of its
path, and a title may hold slashes: then only its last part comes back, and references to different titles agree in it.

Main definitions:
* `Schema.checkedTitle?`, `Schema.referenceTitle?`: the two readings of a reference;
* `Schema.IsLastPart`: what stands behind the last slash of a title.

Main statements:
* `Schema.pathTitle_eq_iff`: what is read off a path is its last part;
* `Schema.titles_read_back`: which titles come back, and which references are told apart.
-/

namespace DataShapes

namespace Schema

/-- The title under which the check of a document looks for what a reference leads to. -/
def checkedTitle? : Schema → Option String
  | .reference path => Document.referredTitle? path
  | .node .. => none

/-- The title of a reference itself. -/
def referenceTitle? : Schema → Option String
  | .reference path => some (pathTitle path)
  | .node .. => none

/-- The part stands behind the last slash of a title, or it is the whole of a title without slashes. -/
def IsLastPart (part title : String) : Prop :=
  '/' ∉ part.toList ∧ (title = part ∨ ∃ front, title = front ++ "/" ++ part)

/-! ### Last parts -/

/-- What is taken from a path for the title stands behind its last slash. -/
theorem isLastPart_pathTitle (path : String) : IsLastPart (pathTitle path) path := by
  have hpath : path.toList = Path.front path ++ (pathTitle path).toList := by
    rw [pathTitle, String.toList_ofList]
    exact Path.toList_eq path
  refine ⟨by rw [pathTitle, String.toList_ofList]; exact Path.not_mem_lastPiece path, ?_⟩
  rcases Path.front_eq path with hnone | ⟨cs, hfront⟩
  · exact .inl (String.toList_inj.1 (by rw [hpath, hnone, List.nil_append]))
  · refine .inr ⟨String.ofList cs, String.toList_inj.1 ?_⟩
    rw [hpath, hfront]
    simp

/-- What is read off a path is its last part. -/
theorem pathTitle_eq_iff {path part : String} : pathTitle path = part ↔ IsLastPart part path := by
  constructor
  · rintro rfl
    exact isLastPart_pathTitle path
  · rintro ⟨hpart, hpath⟩
    have hkeep : ∀ c ∈ part.toList.reverse, (c != '/') = true := by
      intro c hc
      rw [bne_iff_ne]
      rintro rfl
      exact hpart (List.mem_reverse.1 hc)
    unfold pathTitle
    -- Read backwards the part comes first, and a slash ends it.
    rcases hpath with rfl | ⟨front, rfl⟩
    · rw [List.takeWhile_eq_self_iff.2 hkeep, List.reverse_reverse, String.ofList_toList]
    · have hreverse : (front ++ "/" ++ part).toList.reverse
          = part.toList.reverse ++ '/' :: front.toList.reverse := by
        simp
      rw [hreverse, List.takeWhile_append_of_pos hkeep]
      simp

/-- What every path starts with ends with a slash, so that the path of a title has the last part of the title. -/
theorem IsLastPart.toPath {part title : String} (h : IsLastPart part title) :
    IsLastPart part (definitionsPath ++ title) := by
  obtain ⟨hpart, rfl | ⟨front, rfl⟩⟩ := h
  · exact ⟨hpart, .inr ⟨"#/definitions", rfl⟩⟩
  · exact ⟨hpart, .inr ⟨definitionsPath ++ front, by simp [String.append_assoc]⟩⟩

/-- The prefix of references ends with a slash, so the last part is that of the title. -/
theorem isLastPart_toPath_iff {part title : String} :
    IsLastPart part (definitionsPath ++ title) ↔ IsLastPart part title := by
  refine ⟨fun h => ?_, IsLastPart.toPath⟩
  have hsame : part = pathTitle title :=
    (pathTitle_eq_iff.2 h).symm.trans (pathTitle_eq_iff.2 (isLastPart_pathTitle title).toPath)
  rw [hsame]
  exact isLastPart_pathTitle title

/-- A title is its own last part exactly when it holds no slash. -/
theorem isLastPart_self_iff {title : String} : IsLastPart title title ↔ '/' ∉ title.toList :=
  ⟨And.left, fun h => ⟨h, .inl rfl⟩⟩

/-! ### References -/

/-- A reference has for its title the last part of the title that it was made of. -/
theorem referenceTitle?_toTitle_iff {title part : String} :
    (toTitle title).referenceTitle? = some part ↔ IsLastPart part title := by
  rw [toTitle, referenceTitle?, Option.some.injEq, pathTitle_eq_iff, isLastPart_toPath_iff]

/-- Under a title the check looks for what references to that title lead to, and for nothing else. -/
theorem checkedTitle?_eq_some_iff {r : Schema} {title : String} :
    r.checkedTitle? = some title ↔ r = toTitle title := by
  constructor
  · cases r with
    | node f ps i a ms => exact nofun
    | reference path =>
      intro h
      rw [checkedTitle?, Document.referredTitle?] at h
      split at h
      · rename_i hstart
        obtain ⟨rest, hrest⟩ := List.isPrefixOf_iff_prefix.1 hstart
        rw [← hrest, List.drop_left] at h
        obtain rfl := Option.some.inj h
        rw [toTitle, reference.injEq]
        exact String.toList_inj.1 (by rw [← hrest]; simp)
      · cases h
  · rintro rfl
    exact Document.referredTitle?_append title

/-- References tell all titles apart, those with slashes included. -/
theorem toTitle_inj {title other : String} : toTitle title = toTitle other ↔ title = other := by
  constructor
  · intro h
    exact title_eq_of_path_eq (reference.inj h)
  · rintro rfl
    rfl

/-- The check of a document gets every title back, and it tells references apart by it.  The title of a reference itself
    is the last part of the title that it was made for: it is that title, and what the check reads, exactly when the
    title holds no slash, and references agree in it exactly when their titles have the same last part. -/
theorem titles_read_back (title other : String) :
    (∀ r : Schema, r.checkedTitle? = some title ↔ r = toTitle title)
      ∧ (toTitle title = toTitle other ↔ (toTitle title).checkedTitle? = (toTitle other).checkedTitle?)
      ∧ (∀ part, (toTitle title).referenceTitle? = some part ↔ IsLastPart part title)
      ∧ ((toTitle title).referenceTitle? = some title ↔ '/' ∉ title.toList)
      ∧ ((toTitle title).referenceTitle? = (toTitle title).checkedTitle? ↔ '/' ∉ title.toList)
      ∧ ((toTitle title).referenceTitle? = (toTitle other).referenceTitle?
        ↔ ∃ part, IsLastPart part title ∧ IsLastPart part other) := by
  -- The check drops the prefix and nothing else, so all about it follows from this.
  have hchecked : ∀ t, (toTitle t).checkedTitle? = some t := fun t => checkedTitle?_eq_some_iff.2 rfl
  have hown : (toTitle title).referenceTitle? = some title ↔ '/' ∉ title.toList := by
    rw [referenceTitle?_toTitle_iff, isLastPart_self_iff]
  refine ⟨fun r => checkedTitle?_eq_some_iff, ?_, fun part => referenceTitle?_toTitle_iff, hown, ?_, ?_⟩
  · rw [hchecked, hchecked, Option.some.injEq, toTitle_inj]
  · rw [hchecked, hown]
  · constructor
    · intro h
      refine ⟨_, referenceTitle?_toTitle_iff.1 rfl, referenceTitle?_toTitle_iff.1 ?_⟩
      exact h.symm
    · rintro ⟨part, htitle, hother⟩
      rw [referenceTitle?_toTitle_iff.2 htitle, referenceTitle?_toTitle_iff.2 hother]

/-- A title with a slash does not come back: the reference to it has the title of another one. -/
theorem title_cut_at_slash :
    (toTitle "a/b").checkedTitle? = some "a/b" ∧ (toTitle "a/b").referenceTitle? = some "b"
      ∧ (toTitle "b").referenceTitle? = some "b" ∧ toTitle "a/b" ≠ toTitle "b" :=
  ⟨by decide +kernel, by decide +kernel, by decide +kernel, fun h => absurd (toTitle_inj.1 h) (by decide)⟩

end Schema

end DataShapes
