import DataShapes.Proofs.Code.LongText
import DataShapes.Proofs.Stub.Blocks

/-!
# Descriptions of classes

A class that has a description starts with it, as a literal in three quotes of its own line.  The description stands
between the quotes as it is, without any escapes.  So the literal denotes the description when that is verbatim;
otherwise the class starts with another text, with code that was meant as text, or with nothing that can be read.

Main definitions:
* `StubShape.headLines`: the lines in front of the body of a class.

Main statement:
* `Catalog.Reached.docstrings`: which descriptions are read back from the body of their class.
-/

namespace DataShapes

namespace StubShape

variable {stub : StubShape} {d : String}

/-- The lines in front of the body of a class. -/
def headLines (stub : StubShape) : List String :=
  if stub.kind = .dataclass then ["@dataclass(kw_only=True)", "class " ++ stub.name ++ ":"]
  else ["class " ++ stub.name ++ "(TypedDict):"]

/-- The line of a description. -/
def docLine (d : String) : String := "    \"\"\"" ++ d ++ "\"\"\""

/-- A description that is not empty stands on a line of its own, with an empty line behind it. -/
theorem descriptionLines_eq (h : stub.description = some (.str d)) (hd : d ≠ "") :
    stub.descriptionLines = [docLine d, ""] := by
  have htruthy : (Value.str d).isTruthy = true := by
    simpa [Value.isTruthy] using hd
  unfold descriptionLines
  rw [h]
  dsimp only
  rw [if_pos htruthy]
  rfl

/-- The body of a class starts with its description. -/
theorem exists_lines_eq (hkind : stub.kind ≠ .alias) (hclass : stub.functional = false)
    (h : stub.description = some (.str d)) (hd : d ≠ "") :
    ∃ more, stub.lines = stub.headLines ++ docLine d :: more := by
  have hlines := descriptionLines_eq h hd
  by_cases hdata : stub.kind = .dataclass
  · refine ⟨"" :: (stub.fields.map attributeLine ++ stub.emptyLines), ?_⟩
    simp [lines, hdata, hclass, dataclassLines, hlines, headLines]
  · have htyped : stub.kind = .typedDict := by
      cases hword : stub.kind <;> first | rfl | contradiction
    refine ⟨"" :: (stub.extraLines "    "
      ++ stub.fields.map (fun f => "    " ++ f.name ++ ": " ++ keyHint f) ++ stub.emptyLines), ?_⟩
    simp [lines, htyped, hclass, typedDictLines, hlines, headLines]

/-- The description stands between two rows of three quotes as it is. -/
theorem toList_docLine (d : String) (more : List Char) :
    (docLine d).toList ++ '\n' :: more
      = "    ".toList ++ (Code.quotes ++ (d.toList ++ (Code.quotes ++ '\n' :: more))) := by
  simp [docLine, Code.quotes]

/-- In the text of a module the description of a class stands behind the head of the class. -/
theorem exists_render_eq {stubs : List StubShape} (hmem : stub ∈ stubs) (hkind : stub.kind ≠ .alias)
    (hclass : stub.functional = false) (h : stub.description = some (.str d)) (hd : d ≠ "") :
    ∃ before more, (StubModule.render stubs).toList = before ++ '\n' :: (StubModule.textOf stub.headLines
      ++ ("    ".toList ++ (Code.quotes ++ (d.toList ++ (Code.quotes ++ '\n' :: more))))) := by
  obtain ⟨before, after, hrender⟩ := StubModule.exists_render_eq hmem
  obtain ⟨more, hlines⟩ := exists_lines_eq hkind hclass h hd
  refine ⟨before, StubModule.textOf more ++ after, ?_⟩
  rw [hrender, hlines, StubModule.textOf_append, StubModule.textOf_cons, ← toList_docLine]
  simp only [List.append_assoc, List.cons_append]

end StubShape

namespace Catalog

/-- In the module of a reached catalog the body of a class with a description starts with a literal in three quotes,
    a line end behind it, that denotes the description, exactly when the description is verbatim. -/
theorem Reached.docstrings {c : Catalog} (hc : c.Reached) :
    ∃ stubs, c.stubs.result = .ok stubs ∧ c.stubModule.result = .ok (StubModule.render stubs)
      ∧ List.Forall₂ (fun s stub => s.isObject = true → stub.functional = false →
          ∀ d, s.schema.description = some (.str d) → d ≠ "" →
            ∃ before body, (StubModule.render stubs).toList
                = before ++ '\n' :: (StubModule.textOf stub.headLines ++ body)
              ∧ ((∃ rest, Code.readDocstring (Text.unifyBreaks body)
                  = some (d.toList.map Char.toNat, '\n' :: rest)) ↔ Code.Verbatim d.toList))
        c.definitions stubs := by
  obtain ⟨stubs, hstubs, hmodule, hall⟩ := hc.exists_module
  refine ⟨stubs, hstubs, hmodule, ?_⟩
  rw [List.forall₂_iff_zip] at hall ⊢
  refine ⟨hall.1, fun {s stub} hmem hobject hclass d hdescription hd => ?_⟩
  have hpresents := hall.2 hmem hobject
  -- The body begins with the literal; whether it denotes the description is a matter of its text alone.
  obtain ⟨before, more, hrender⟩ := StubShape.exists_render_eq (List.of_mem_zip hmem).2 hpresents.kind hclass
    (hpresents.description.trans hdescription) hd
  exact ⟨before, _, hrender, Code.readDocstring_iff⟩

/-- A description without quotes and backslashes is read back, over a line end as well. -/
theorem Reached.docstrings_page :
    (Single.catalog "Page" "body" "A page.\nIt has a body.").Reached
      ∧ ∃ before body rest,
        (StubModule.render [Single.stub "Page" "body" "A page.\nIt has a body."]).toList
          = before ++ '\n' :: (StubModule.textOf ["@dataclass(kw_only=True)", "class Page:"] ++ body)
        ∧ Code.readDocstring (Text.unifyBreaks body)
          = some ("A page.\nIt has a body.".toList.map Char.toNat, '\n' :: rest) := by
  have hc : (Single.catalog "Page" "body" "A page.\nIt has a body.").Reached := Single.reached (by decide)
  have hclass : (Single.stub "Page" "body" "A page.\nIt has a body.").functional = false := by
    decide +kernel
  have hhead : (Single.stub "Page" "body" "A page.\nIt has a body.").headLines
      = ["@dataclass(kw_only=True)", "class Page:"] := by
    decide +kernel
  obtain ⟨stubs, hstubs, -, hall⟩ := Reached.docstrings hc
  rw [Single.result_stubs] at hstubs
  obtain rfl := Except.ok.inj hstubs
  obtain ⟨before, body, hrender, hread⟩ :=
    (List.forall₂_cons.1 hall).1 rfl hclass "A page.\nIt has a body." rfl (by decide)
  -- A line end within the text is allowed: verbatim text has no backslash, no return and no three quotes.
  obtain ⟨rest, hrest⟩ := hread.2
    ⟨Code.plain_of_not_mem (by decide) (by decide), by decide, by decide, by decide⟩
  exact ⟨hc, before, body, rest, by rw [← hhead]; exact hrender, hrest⟩

/-- A quote at the end of a description closes the literal together with two of the closing ones; the last of these
    is left over in front of the line end. -/
theorem description_closed_early :
    (Single.catalog "Page" "body" "Says \"hi\"").Reached
      ∧ (Single.catalog "Page" "body" "Says \"hi\"").stubs.result = .ok [Single.stub "Page" "body" "Says \"hi\""]
      ∧ (Single.stub "Page" "body" "Says \"hi\"").lines
        = ["@dataclass(kw_only=True)", "class Page:", "    \"\"\"Says \"hi\"\"\"\"", "", "    body: str"]
      ∧ Code.readDocstring "    \"\"\"Says \"hi\"\"\"\"\n\n    body: str\n".toList
        = some ("Says \"hi".toList.map Char.toNat, "\"\n\n    body: str\n".toList)
      ∧ "Says \"hi".toList.map Char.toNat ≠ "Says \"hi\"".toList.map Char.toNat :=
  ⟨Single.reached (by decide), Single.result_stubs _ _ _, by decide +kernel, by decide +kernel, by decide⟩

end Catalog

end DataShapes
