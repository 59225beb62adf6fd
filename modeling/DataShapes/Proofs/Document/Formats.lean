import DataShapes.Document.Load
import DataShapes.Proofs.Files.Opening
import DataShapes.Proofs.Json.NormalForm
import DataShapes.Proofs.Yaml.Keys

/-!
# Saving and loading documents

A document is saved in the format that its path ends like, and loaded in the format of the suffix of the
file's name.  A name that is nothing but the ending of YAML files has no suffix, so there the two choices
differ; everywhere else they are the same, and what was saved is loaded.

Main definitions:
* `Document.Supported`: a mapping of a format version that is supported;
* `Document.ReadsBack`: reading a document inverts writing it.

Main statements:
* `Document.formatFor_eq_formatOfFile_iff`: where the two choices are the same;
* `Document.result_save`: a document with a normal form is saved to a file that can be opened;
* `Document.load_save`: what is loaded after a document has been saved.
-/

namespace DataShapes

namespace Document

/-! ### The choice of a format -/

/-- A document is saved as YAML when the name of its file ends so. -/
theorem formatFor_eq_yaml_iff {path : String} (h : Path.NamesFile path) :
    formatFor path none = .yaml ↔ ∃ e ∈ yamlEndings, e.toList <:+ (Path.name path).toList := by
  have hslash : ∀ e ∈ yamlEndings, '/' ∉ e.toList := by decide
  have hends : endsAsYaml path = true ↔ ∃ e ∈ yamlEndings, e.toList <:+ (Path.name path).toList := by
    unfold endsAsYaml
    rw [List.any_eq_true]
    refine exists_congr fun e => and_congr_right fun he => ?_
    rw [List.isSuffixOf_iff_suffix, h.isSuffix_iff (hslash e he)]
  rw [← hends]
  show (if endsAsYaml path then Format.yaml else .json) = .yaml ↔ _
  cases endsAsYaml path <;> decide

/-- A file is loaded as YAML when its name ends so and is not just the ending. -/
theorem formatOfFile_eq_yaml_iff (path : String) :
    formatOfFile path = .yaml ↔
      ∃ e ∈ yamlEndings, e.toList <:+ (Path.name path).toList ∧ Path.name path ≠ e := by
  -- A name that is the ending and nothing else has no suffix, hence the second condition.
  have hsuffix : ∀ e ∈ yamlEndings,
      (Path.suffix path = e ↔ e.toList <:+ (Path.name path).toList ∧ Path.name path ≠ e) := by
    intro e he
    rcases List.mem_pair.1 he with rfl | rfl
    · exact Path.suffix_eq_iff_isSuffix path ['y', 'a', 'm', 'l'] (by decide) (by decide)
    · exact Path.suffix_eq_iff_isSuffix path ['y', 'm', 'l'] (by decide) (by decide)
  have hmem : yamlEndings.contains (Path.suffix path) = true ↔
      ∃ e ∈ yamlEndings, e.toList <:+ (Path.name path).toList ∧ Path.name path ≠ e := by
    rw [List.contains_iff_mem]
    constructor
    · exact fun hin => ⟨_, hin, (hsuffix _ hin).1 rfl⟩
    · rintro ⟨e, he, hname⟩
      rw [(hsuffix e he).2 hname]
      exact he
  rw [← hmem]
  unfold formatOfFile
  cases yamlEndings.contains (Path.suffix path) <;> decide

/-- The format for a path is that of the file, unless the file's name is the ending of YAML files alone. -/
theorem formatFor_eq_formatOfFile_iff {path : String} (h : Path.NamesFile path) :
    formatFor path none = formatOfFile path ↔ Path.name path ∉ yamlEndings := by
  -- Neither ending is the end of the other.
  have hapart : ∀ e ∈ yamlEndings, ∀ e' ∈ yamlEndings, e.toList <:+ e'.toList → e' = e := by decide
  by_cases hends : ∃ e ∈ yamlEndings, e.toList <:+ (Path.name path).toList
  · rw [(formatFor_eq_yaml_iff h).2 hends, eq_comm, formatOfFile_eq_yaml_iff]
    constructor
    · rintro ⟨e, he, hsuffix, hne⟩ hname
      exact hne (hapart e he _ hname hsuffix)
    · intro hname
      obtain ⟨e, he, hsuffix⟩ := hends
      exact ⟨e, he, hsuffix, fun heq => hname (heq ▸ he)⟩
  · have hjson : ∀ {f : Format}, ¬ f = .yaml → f = .json := by
      intro f hf
      cases f
      · rfl
      · exact absurd rfl hf
    have hwrite : formatFor path none = .json := hjson fun hyaml => hends ((formatFor_eq_yaml_iff h).1 hyaml)
    have hread : formatOfFile path = .json := by
      refine hjson fun hyaml => hends ?_
      obtain ⟨e, he, hsuffix, -⟩ := (formatOfFile_eq_yaml_iff path).1 hyaml
      exact ⟨e, he, hsuffix⟩
    refine ⟨fun _ hname => hends ⟨_, hname, List.suffix_rfl⟩, fun _ => hwrite.trans hread.symm⟩

/-! ### Saving -/

/-- The text of a document with a normal form is complete in either format. -/
theorem problem_content {document v : Value} (hv : Json.normalForm document = .ok v) (format : Format) :
    (content format document).problem = none := by
  cases format with
  | json => exact Json.problem_write Json.indented 0 document hv
  | yaml =>
    unfold content
    rw [hv]
    rfl

/-- A document with a normal form is saved to a file that can be opened. -/
theorem result_save {path : String} {document v : Value} {folder : Folder} (hopens : folder.Opens path)
    (hv : Json.normalForm document = .ok v) (format : Option String) :
    ∃ g : Folder, g.checkWritable path = .ok () ∧ (save path document format folder).1.result = .ok () ∧
      (save path document format folder).2 =
        g.write path (content (formatFor path format) document).text := by
  obtain ⟨g, hmade, hwritable⟩ := hopens
  have hwritten := Filing.writeFile_of_ok hwritable (problem_content hv (formatFor path format))
  refine ⟨g, hwritable, ?_⟩
  unfold save saveUnder
  rw [Filing.bind_of_ok hmade]
  -- The content is ready and the file is opened, so there is no problem to put into other words.
  have hquiet : ∀ describe, Filing.onProblem
      (Filing.writeFile none path (content (formatFor path format) document)) describe g =
        (⟨.ok (), []⟩, g.write path (content (formatFor path format) document).text) := by
    intro describe
    unfold Filing.onProblem
    rw [hwritten]
  rw [Filing.bind_of_ok (hquiet _)]
  exact ⟨rfl, rfl⟩

/-! ### Supported documents -/

/-- The document is a mapping, with distinct keys, of a format version that is supported. -/
def Supported (document : Value) : Prop :=
  ∃ entries, document = .dict entries ∧ (entries.Pairwise fun e f => ¬ e.1.Same f.1) ∧
    (FormatVersion.current.check ((document.get? "format_version").getD .null)).compatible = true

/-- Only a text can be a version that is supported. -/
theorem exists_str_of_compatible {supported : FormatVersion} {declared : Value}
    (h : (supported.check declared).compatible = true) : ∃ s, declared = .str s := by
  cases declared with
  | str s => exact ⟨s, rfl⟩
  | null | bool | int | float | list | tuple | dict | descriptor | shape | foreign =>
    exact absurd h (by simp [FormatVersion.check, FormatVersion.parse])

theorem isWord_formatVersion : Json.IsWord "format_version" where
  not_name := by decide
  not_number := by
    rintro ⟨c, cs, hcs, hc⟩
    have hf : 'f' = c := (List.cons_eq_cons.1 hcs).1
    rw [← hf] at hc
    exact absurd hc (by decide)

/-- The normal form of a supported document declares the same version. -/
theorem Supported.get?_normalForm {document v : Value} (h : Supported document)
    (hv : Json.normalForm document = .ok v) :
    ∃ s, v.get? "format_version" = some (.str s) ∧
      (FormatVersion.current.check (.str s)).compatible = true := by
  obtain ⟨entries, rfl, hkeys, hcompatible⟩ := h
  obtain ⟨s, hs⟩ := exists_str_of_compatible hcompatible
  -- Only a text is compatible, so the version is declared.
  have hget : (Value.dict entries).get? "format_version" = some (.str s) := by
    cases hdeclared : (Value.dict entries).get? "format_version" with
    | none =>
      rw [hdeclared] at hs
      exact absurd hs nofun
    | some declared =>
      rw [hdeclared] at hs
      exact congrArg some hs
  refine ⟨s, Json.get?_normalForm hkeys isWord_formatVersion hv hget rfl, ?_⟩
  rwa [hs] at hcompatible

/-- The normal form of a supported document is a dictionary under texts that is not empty. -/
theorem Supported.exists_normalForm {document v : Value} (h : Supported document)
    (hv : Json.normalForm document = .ok v) : ∃ key w es, v = .dict ((.str key, w) :: es) := by
  obtain ⟨s, hget, -⟩ := h.get?_normalForm hv
  obtain ⟨entries, rfl, -⟩ := h
  obtain ⟨t, rfl, -⟩ := Json.normalForm_dict_eq_ok hv
  cases ht : Table.ofList t with
  | nil =>
    rw [ht] at hget
    exact absurd hget nofun
  | cons e es => exact ⟨e.1, e.2, _, rfl⟩

/-- The normal form of a supported document is accepted. -/
theorem Supported.accept {document v : Value} (h : Supported document)
    (hv : Json.normalForm document = .ok v) (path : String) : (accept path v).result = .ok v := by
  obtain ⟨s, hget, hcompatible⟩ := h.get?_normalForm hv
  obtain ⟨key, w, es, rfl⟩ := h.exists_normalForm hv
  unfold Document.accept
  simp only [hget, Option.getD_some, hcompatible, Bool.not_true, Bool.false_eq_true, if_false]
  split <;> rfl

/-! ### Loading -/

/-- A text that is read gives its value. -/
theorem parseNoted_of_some {path text : String} {v : Value} (h : parse (formatOfFile path) text = some v) :
    (parseNoted path text).result = .ok v := by
  delta parseNoted
  rw [h]
  rfl

/-- A text that is not read is a problem of its file. -/
theorem parseNoted_of_none {path text : String} (h : parse (formatOfFile path) text = none) :
    (parseNoted path text).result = .error (.unreadableDocument path) := by
  delta parseNoted
  rw [h]

/-- Loading a file parses its text and checks the version. -/
theorem result_load {folder : Folder} {path text : String}
    (h : folder.read (Path.tidy path) = .ok text) :
    (load path folder).1.result =
      (parseNoted path text).result.bind fun document => (accept path document).result := by
  have hread : Filing.readFile (Path.tidy path) folder = (⟨.ok text, []⟩, folder) := by
    unfold Filing.readFile
    rw [h]
    rfl
  have hload : load path = Filing.readFile (Path.tidy path) >>= fun text =>
      Filing.ofNoted (parseNoted path text) >>= fun document =>
        Filing.ofNoted (Document.accept path document) := rfl
  rw [hload, Filing.bind_of_ok hread, Filing.ofNoted_bind, Noted.result_bind]

/-- A supported document that is written as YAML cannot be read as JSON. -/
theorem Supported.parse_json_yaml {document v : Value} (h : Supported document)
    (hv : Json.normalForm document = .ok v) : parse .json (content .yaml document).text = none := by
  obtain ⟨key, w, es, rfl⟩ := h.exists_normalForm hv
  unfold content
  rw [hv]
  exact Yaml.read_render_eq_none key w es

/-! ### Loading what was saved -/

section

variable {path : String} {document v : Value} {folder : Folder}

/-- In either format, reading inverts writing for the document: its text is that of the normal form. -/
def ReadsBack (document v : Value) : Prop :=
  ∀ format, parse format (content format document).text = some v

/-- What is loaded after saving is the text in the one format, parsed in the other. -/
theorem result_load_save (hopens : folder.Opens path) (hv : Json.normalForm document = .ok v) :
    (load path (save path document none folder).2).1.result =
      (parseNoted path (content (formatFor path none) document).text).result.bind
        fun document => (accept path document).result := by
  obtain ⟨g, hwritable, -, hfolder⟩ := result_save hopens hv none
  rw [hfolder]
  exact result_load (Folder.read_write hwritable _)

/-- A document is loaded when it was saved in the format of its file. -/
theorem load_save_of_eq (hchoice : formatFor path none = formatOfFile path) (hopens : folder.Opens path)
    (hsupported : Supported document) (hv : Json.normalForm document = .ok v)
    (hinverse : ReadsBack document v) :
    (load path (save path document none folder).2).1.result = .ok v := by
  have hparsed : parse (formatOfFile path) (content (formatFor path none) document).text = some v := by
    rw [hchoice]
    exact hinverse _
  rw [result_load_save hopens hv, parseNoted_of_some hparsed]
  exact hsupported.accept hv path

/-- No document is loaded from a file whose name is the ending of YAML files alone: it was written as
    YAML, and the name has no suffix. -/
theorem load_save_of_mem (hnames : Path.NamesFile path) (hname : Path.name path ∈ yamlEndings)
    (hopens : folder.Opens path) (hsupported : Supported document)
    (hv : Json.normalForm document = .ok v) :
    (load path (save path document none folder).2).1.result = .error (.unreadableDocument path) := by
  have hwrite : formatFor path none = .yaml := (formatFor_eq_yaml_iff hnames).2 ⟨_, hname, List.suffix_rfl⟩
  -- The two formats differ for such a name, and YAML is the one it is saved in.
  have hread : formatOfFile path = .json := by
    cases hformat : formatOfFile path with
    | json => rfl
    | yaml => exact absurd hname ((formatFor_eq_formatOfFile_iff hnames).1 (hwrite.trans hformat.symm))
  have hparsed : parse (formatOfFile path) (content (formatFor path none) document).text = none := by
    rw [hwrite, hread]
    exact hsupported.parse_json_yaml hv
  rw [result_load_save hopens hv, parseNoted_of_none hparsed]
  rfl

/-- **Saving and loading.** A document is saved to every file that can be opened, and it is read back from
    every one but those whose name is the ending of YAML files alone. -/
theorem load_save (hnames : Path.NamesFile path) (hopens : folder.Opens path)
    (hsupported : Supported document) (hv : Json.normalForm document = .ok v)
    (hinverse : ReadsBack document v) :
    (save path document none folder).1.result = .ok () ∧
      (formatFor path none = formatOfFile path ↔ Path.name path ∉ yamlEndings) ∧
      (load path (save path document none folder).2).1.result =
        if Path.name path ∈ yamlEndings then .error (.unreadableDocument path) else .ok v := by
  obtain ⟨g, -, hsaved, -⟩ := result_save hopens hv none
  have hchoice := formatFor_eq_formatOfFile_iff hnames
  refine ⟨hsaved, hchoice, ?_⟩
  split
  · exact load_save_of_mem hnames ‹_› hopens hsupported hv
  · exact load_save_of_eq (hchoice.2 ‹_›) hopens hsupported hv hinverse

end

/-! ### A document without definitions -/

/-- A document that says nothing but its version. -/
def bare : Value := .record [("format_version", .str "0.3.0")]

/-- A document that says nothing but its version can be saved in both formats. -/
theorem supported_bare : Supported bare :=
  ⟨_, rfl, List.pairwise_singleton _ _, by decide +kernel⟩

theorem normalForm_bare : Json.normalForm bare = .ok bare := rfl

/-- A value is the document that says nothing but its version. -/
def isBare : Value → Bool
  | .dict [(.str key, .str s)] => key == "format_version" && s == "0.3.0"
  | _ => false

theorem eq_bare_of_isBare {v : Value} (h : isBare v = true) : v = bare := by
  unfold isBare at h
  split at h
  · obtain ⟨hkey, hs⟩ := Bool.and_eq_true_iff.1 h
    rw [eq_of_beq hkey, eq_of_beq hs]
    rfl
  · exact absurd h (by simp)

/-- It is read back as it is. -/
theorem readsBack_bare : ReadsBack bare bare := by
  have hsingle : ∀ o : Option Value, o.any isBare = true → o = some bare := by
    intro o ho
    obtain ⟨v, rfl, hbare⟩ := (Option.any_eq_true _ _).1 ho
    rw [eq_bare_of_isBare hbare]
  intro format
  cases format with
  | json => exact hsingle _ (by decide +kernel)
  | yaml => exact hsingle _ (by decide +kernel)

/-- The document is saved and loaded as YAML in a directory that is made for it. -/
theorem load_save_directory :
    Path.NamesFile "out/definitions.yaml" ∧ ({} : Folder).Opens "out/definitions.yaml" ∧
      Supported bare ∧ Json.normalForm bare = .ok bare ∧
      ReadsBack bare bare ∧
      (load "out/definitions.yaml" (save "out/definitions.yaml" bare none {}).2).1.result = .ok bare := by
  have hnames : Path.NamesFile "out/definitions.yaml" := by decide +kernel
  have hopens : ({} : Folder).Opens "out/definitions.yaml" :=
    Folder.opens_of_no_files hnames rfl (by decide +kernel)
  have hname : Path.name "out/definitions.yaml" ∉ yamlEndings := by decide +kernel
  obtain ⟨-, -, hloaded⟩ := load_save hnames hopens supported_bare normalForm_bare readsBack_bare
  rw [if_neg hname] at hloaded
  exact ⟨hnames, hopens, supported_bare, normalForm_bare, readsBack_bare, hloaded⟩

/-- In a file named `.yaml` the document is written as YAML, and reading it as JSON fails. -/
theorem not_loaded_from_ending :
    Path.NamesFile ".yaml" ∧ Supported bare ∧ Json.normalForm bare = .ok bare ∧
      ReadsBack bare bare ∧
      (save ".yaml" bare none {}).1.result = .ok () ∧
      formatFor ".yaml" none = .yaml ∧ formatOfFile ".yaml" = .json ∧
      (load ".yaml" (save ".yaml" bare none {}).2).1.result = .error (.unreadableDocument ".yaml") := by
  have hnames : Path.NamesFile ".yaml" := by decide +kernel
  have hopens : ({} : Folder).Opens ".yaml" := Folder.opens_of_no_files hnames rfl (by decide +kernel)
  obtain ⟨g, -, hsaved, -⟩ := result_save hopens normalForm_bare none
  exact ⟨hnames, supported_bare, normalForm_bare, readsBack_bare, hsaved, by decide +kernel,
    by decide +kernel, load_save_of_mem hnames (by decide +kernel) hopens supported_bare normalForm_bare⟩

end Document

end DataShapes
