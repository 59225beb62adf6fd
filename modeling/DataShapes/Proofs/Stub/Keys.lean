import DataShapes.Proofs.Code.CodeUnits
import DataShapes.Proofs.Code.Expression
import DataShapes.Proofs.Stub.Blocks

/-!
# Keys of typed dictionaries in the functional form

A typed dictionary in the functional form lists its keys as texts that are quoted for JSON, each on a line of its own.
The module reads them as text literals.  So the keys that it has are the code units of the names of the properties:
the names themselves when all their characters are in the basic plane, and other texts otherwise.

Main definitions:
* `Code.readKey`: the key at the start of a line;
* `StubShape.keys?`: the keys that a block in the functional form lists.

Main statement:
* `Catalog.Reached.functional_keys`: what JSON texts denote, and the keys of each typed dictionary.
-/

namespace DataShapes

/-! ### Lines with keys -/

/-- The key at the start of a line: a text literal with a colon behind it. -/
def Code.readKey (line : String) : Option (List Nat) := do
  let (points, rest) ← readText (skipBlanks line.toList)
  if (skipBlanks rest).head? = some ':' then some points else none

namespace StubShape

/-- The line of a block that closes the row of keys. -/
def closingLine : String := "    \x7d,"

/-- The keys that a block in the functional form lists between its third line and the closing one. -/
def keys? (block : List String) : Option (List (List Nat)) :=
  ((block.drop 3).takeWhile (· ≠ closingLine)).mapM Code.readKey

/-- The line of a field. -/
def keyLine (f : StubField) : String := "        " ++ Json.quote f.name ++ ": " ++ keyHint f ++ ","

/-- The line of a field begins with its quoted name and a colon. -/
theorem toList_keyLine (f : StubField) :
    ∃ more, (keyLine f).toList = "        ".toList ++ ((Json.quote f.name).toList ++ ':' :: more) := by
  refine ⟨' ' :: (keyHint f).toList ++ [','], ?_⟩
  simp [keyLine]

/-- A key is read as the code units of the name. -/
theorem readKey_keyLine (f : StubField) : Code.readKey (keyLine f) = some (Json.unitsOf f.name) := by
  obtain ⟨more, hmore⟩ := toList_keyLine f
  obtain ⟨body, hbody⟩ : ∃ body, (Json.quote f.name).toList = '"' :: body := ⟨_, String.toList_ofList⟩
  have hskip : Code.skipBlanks (keyLine f).toList = (Json.quote f.name).toList ++ ':' :: more := by
    rw [hmore, hbody]
    rfl
  have hread : Code.readText ((Json.quote f.name).toList ++ ':' :: more)
      = some (Json.unitsOf f.name, ':' :: more) :=
    Code.readText_jsonQuote f.name (by simp)
  unfold Code.readKey
  rw [hskip, hread]
  rfl

/-- The line of a field is indented further than the closing one. -/
theorem keyLine_ne_closingLine (f : StubField) : keyLine f ≠ closingLine := by
  intro h
  obtain ⟨more, hmore⟩ := toList_keyLine f
  have hfifth : (keyLine f).toList[4]? = some ' ' := by rw [hmore]; rfl
  rw [h] at hfifth
  exact absurd hfifth (by decide)

/-- The functional form has a line for each field, between its opening and closing lines. -/
theorem functionalLines_eq (s : StubShape) :
    s.functionalLines = [s.name ++ " = TypedDict(", "    \"" ++ s.name ++ "\",", "    \x7b"]
      ++ (s.fields.map keyLine ++ (closingLine :: ")" :: s.extraLines "")) := by
  simp [functionalLines, closingLine, keyLine]

/-- The keys that are read off these lines are the code units of the names. -/
theorem keys_functionalLines (s : StubShape) :
    keys? s.functionalLines = some (s.fields.map fun f => Json.unitsOf f.name) := by
  -- The keys stand between the header and the first closing line.
  have hbetween : (s.functionalLines.drop 3).takeWhile (· ≠ closingLine) = s.fields.map keyLine := by
    have hdrop : s.functionalLines.drop 3 = s.fields.map keyLine ++ (closingLine :: ")" :: s.extraLines "") := by
      rw [functionalLines_eq]
      rfl
    have hall : ∀ line ∈ s.fields.map keyLine, decide (line ≠ closingLine) = true := by
      intro line hline
      obtain ⟨f, -, rfl⟩ := List.mem_map.1 hline
      exact decide_eq_true (keyLine_ne_closingLine f)
    rw [hdrop, List.takeWhile_append_of_pos hall, List.takeWhile_cons_of_neg (by simp), List.append_nil]
  unfold keys?
  rw [hbetween]
  generalize s.fields = fields
  induction fields with
  | nil => rfl
  | cons f fields ih => simp [readKey_keyLine, ih]

/-- The block of a stub in the functional form. -/
theorem lines_of_functional {s : StubShape} (hkind : s.kind ≠ .alias) (h : s.functional = true) :
    s.lines = s.functionalLines := by
  unfold lines
  split
  · exact absurd ‹_› hkind
  · rw [if_pos h]

end StubShape

namespace Catalog

/-- A text that is quoted for JSON, read as a text literal, denotes the code units of the text, and these are its
    code points exactly when all its characters are in the basic plane.  In the module of a reached catalog the block
    of an object shape in the functional form lists, in order and each once, the code units of the names of its
    properties; so the keys are the names exactly when all names are in the basic plane. -/
theorem Reached.functional_keys {c : Catalog} (hc : c.Reached) :
    (∀ s rest, rest.head? ≠ some '"' →
      Code.readText ((Json.quote s).toList ++ rest) = some (Json.unitsOf s, rest))
    ∧ (∀ s, Json.unitsOf s = s.toList.map Char.toNat ↔ Json.IsBasic s)
    ∧ ∃ stubs, c.stubs.result = .ok stubs ∧ c.stubModule.result = .ok (StubModule.render stubs)
      ∧ List.Forall₂ (fun s stub => s.isObject = true → stub.functional = true →
          (∃ before after, (StubModule.render stubs).toList
            = before ++ '\n' :: (StubModule.textOf stub.lines ++ after))
          ∧ ∃ keys, StubShape.keys? stub.lines = some keys
            ∧ keys = s.specs.map (fun spec => Json.unitsOf spec.name) ∧ keys.Nodup
            ∧ (keys = s.specs.map (fun spec => spec.name.toList.map Char.toNat) ↔
              ∀ spec ∈ s.specs, Json.IsBasic spec.name))
        c.definitions stubs := by
  refine ⟨fun s rest => Code.readText_jsonQuote s, fun s => Json.unitsOf_eq_iff, ?_⟩
  obtain ⟨stubs, hstubs, hmodule, hall⟩ := hc.exists_module
  refine ⟨stubs, hstubs, hmodule, ?_⟩
  rw [List.forall₂_iff_zip] at hall ⊢
  refine ⟨hall.1, fun {s stub} hmem hobject hfunctional => ?_⟩
  have hpresents := hall.2 hmem hobject
  have hkeys : StubShape.keys? stub.lines = some (s.specs.map fun spec => Json.unitsOf spec.name) := by
    have hnames := congrArg (List.map Json.unitsOf) hpresents.fields
    rw [List.map_map, List.map_map] at hnames
    rw [StubShape.lines_of_functional hpresents.kind hfunctional, StubShape.keys_functionalLines]
    exact congrArg some hnames
  refine ⟨StubModule.exists_render_eq (List.of_mem_zip hmem).2, _, hkeys, rfl, ?_, ?_⟩
  · -- Code units tell texts apart, so distinct names have distinct keys.
    have hdistinct := hpresents.names.map Json.unitsOf_injective
    rwa [List.map_map] at hdistinct
  · rw [List.map_inj_left]
    exact forall₂_congr fun _ _ => Json.unitsOf_eq_iff

/-- The name of a header is a key of its own. -/
theorem Reached.functional_keys_header :
    (Single.catalog "Letter" "content-type" "A letter.").Reached
      ∧ (Single.stub "Letter" "content-type" "A letter.").functional = true
      ∧ StubShape.keys? (Single.stub "Letter" "content-type" "A letter.").lines
        = some ["content-type".toList.map Char.toNat] := by
  have hc : (Single.catalog "Letter" "content-type" "A letter.").Reached := Single.reached (by decide)
  have hfunctional : (Single.stub "Letter" "content-type" "A letter.").functional = true := by
    decide +kernel
  obtain ⟨-, -, stubs, hstubs, -, hall⟩ := Reached.functional_keys hc
  rw [Single.result_stubs] at hstubs
  obtain rfl := Except.ok.inj hstubs
  obtain ⟨-, keys, hkeys, -, -, hsame⟩ := (List.forall₂_cons.1 hall).1 rfl hfunctional
  refine ⟨hc, hfunctional, hkeys.trans (congrArg some ?_)⟩
  apply hsame.2
  intro spec hspec
  obtain rfl := List.mem_singleton.1 hspec
  decide

/-- A character outside the basic plane is written as two escapes, which a literal reads as two code points; so an
    icon has a key that is not the name of its property. -/
theorem two_points_for_one :
    (Single.catalog "Icon" "😀" "An icon.").Reached
      ∧ Json.quote "😀" = "\"\\ud83d\\ude00\""
      ∧ Code.readText (Json.quote "😀").toList = some ([0xD83D, 0xDE00], [])
      ∧ "😀".toList.map Char.toNat = [0x1F600]
      ∧ (Single.catalog "Icon" "😀" "An icon.").stubs.result = .ok [Single.stub "Icon" "😀" "An icon."]
      ∧ (Single.stub "Icon" "😀" "An icon.").functional = true
      ∧ StubShape.keys? (Single.stub "Icon" "😀" "An icon.").lines = some [[0xD83D, 0xDE00]] := by
  have hfunctional : (Single.stub "Icon" "😀" "An icon.").functional = true := by
    decide +kernel
  have hkind : (Single.stub "Icon" "😀" "An icon.").kind ≠ .alias := by
    decide +kernel
  refine ⟨Single.reached (by decide), by decide, by decide, by decide, Single.result_stubs _ _ _, hfunctional, ?_⟩
  rw [StubShape.lines_of_functional hkind hfunctional, StubShape.keys_functionalLines]
  decide +kernel

end Catalog

end DataShapes
