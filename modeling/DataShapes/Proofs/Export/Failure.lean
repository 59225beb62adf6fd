import DataShapes.Export.Run
import DataShapes.Proofs.Files.Opening
import DataShapes.Proofs.Stub.Blocks

/-!
# Exports that fail

An export checks everything before it writes anything: the arguments, the catalog, its titles, its definitions and
their references.  Then it writes the document, and the stubs at last.  A file is emptied when it is opened, and
nothing that was written is taken back.  So an export that fails leaves all files as they were, unless it came as far
as opening one.  If that was the document's file, it holds the beginning of the document; if it was that of the stubs,
it holds the beginning of the stubs, and the document was complete before.

Main definitions:
* `Filing.Ends`: what a computation ends with in a folder, and which folder it leaves;
* `Modules.Checked`: the catalog that the arguments ask for is found and passes all checks;
* `Targets.StoppedInDocument`, `Catalog.StoppedInStubs`: an export that failed in one of its files.

Main statement:
* `Modules.files_of_failed_export`: the files after an export that failed.
-/

namespace DataShapes

/-! ### What computations leave behind -/

namespace Filing

variable {α β : Type} {folder g : Folder}

/-- In the folder the computation ends with the result and leaves the other folder. -/
def Ends (x : Filing α) (folder : Folder) (r : Except Problem α) (g : Folder) : Prop :=
  (x folder).1.result = r ∧ (x folder).2 = g

/-- One computation after another: after a problem of the first one the second does not start, and otherwise it starts
    in the folder that the first one leaves. -/
theorem ends_bind {x : Filing α} {f : α → Filing β} {r : Except Problem β} (h : (x >>= f).Ends folder r g) :
    (∃ p, r = .error p ∧ x.Ends folder (.error p) g)
      ∨ ∃ a left, x.Ends folder (.ok a) left ∧ (f a).Ends left r g := by
  have hbind : (x >>= f) folder = andThen x f folder := rfl
  unfold Ends at h ⊢
  rw [hbind, andThen] at h
  generalize x folder = y at h
  obtain ⟨⟨result, notices⟩, left⟩ := y
  cases result with
  | error p => exact .inl ⟨p, h.1.symm, rfl, h.2⟩
  | ok a => exact .inr ⟨a, left, ⟨rfl, rfl⟩, h⟩

/-- A computation that leaves the folder alone. -/
theorem ends_ofNoted {x : Noted α} {r : Except Problem α} (h : (ofNoted x).Ends folder r g) :
    x.result = r ∧ folder = g := h

/-- A notice about a problem changes nothing else. -/
theorem ends_onProblem {x : Filing α} {describe : Problem → Notice} {r : Except Problem α}
    (h : (x.onProblem describe).Ends folder r g) : x.Ends folder r g := by
  unfold Ends onProblem at h
  unfold Ends
  generalize x folder = y at h
  obtain ⟨⟨result, notices⟩, left⟩ := y
  cases result <;> exact h

end Filing

/-- Directories are made, and no file changes. -/
theorem Folder.files_makeFrom {f g : Folder} {made names : List String} (h : f.makeFrom made names = .ok g) :
    g.files = f.files := by
  induction names generalizing f made with
  | nil =>
    obtain rfl := Except.ok.inj h
    rfl
  | cons n names ih =>
    unfold makeFrom at h
    dsimp only at h
    -- An existing directory, one that is in the way or cannot be made, or a new one.
    split_ifs at h
    · exact ih h
    · split at h <;> cases h
    · have hadded := ih h
      exact hadded

namespace Filing

variable {folder g : Folder} {path : String}

/-- Making a directory changes no files, and when it works it always works in the same way. -/
theorem ends_makeDirectoryFor {r : Except Problem Unit} (h : (makeDirectoryFor path).Ends folder r g) :
    g.files = folder.files ∧ (r = .ok () → makeDirectoryFor path folder = (pure (), g)) := by
  unfold Ends makeDirectoryFor at h
  unfold makeDirectoryFor
  dsimp only at h ⊢
  -- No directory is made for a path without one.
  split_ifs at h ⊢
  · obtain ⟨rfl, rfl⟩ := h
    exact ⟨rfl, fun _ => rfl⟩
  · cases hmade : folder.makeDirectories (Path.directory path) with
    | ok made =>
      rw [hmade] at h
      obtain ⟨rfl, rfl⟩ := h
      exact ⟨Folder.files_makeFrom hmade, fun _ => rfl⟩
    | error p =>
      rw [hmade] at h
      obtain ⟨rfl, rfl⟩ := h
      exact ⟨rfl, nofun⟩

/-- A file that cannot be opened is left alone; otherwise it holds the output as far as it goes. -/
theorem ends_writeFile {d : Option Disruption} {o : Output} {r : Except Problem Unit}
    (h : (writeFile d path o).Ends folder r g) :
    ((∃ p, r = .error p) ∧ g.files = folder.files)
      ∨ (folder.checkWritable path = .ok () ∧ r = (o.disrupted d).complete.map (fun _ => ())
        ∧ g.files = folder.files.put (Path.join (Path.parts path)) (o.disrupted d).text) := by
  unfold Ends writeFile at h
  -- Opening empties the file, so from there on it holds what was put out.
  cases hopen : folder.checkWritable path with
  | error p =>
    rw [hopen] at h
    obtain ⟨rfl, rfl⟩ := h
    exact .inl ⟨⟨p, rfl⟩, rfl⟩
  | ok _ =>
    rw [hopen] at h
    obtain ⟨rfl, rfl⟩ := h
    exact .inr ⟨rfl, rfl, rfl⟩

end Filing

/-! ### The document and the stubs -/

section

variable {folder g : Folder} {path : String}

/-- What gets into the document's file. -/
def Document.written (d : Option Disruption) (path : String) (document : Value) (format : Option String) : Output :=
  (content (formatFor path format) document).disrupted d

/-- The document's file is left alone unless it can be opened; then it holds the document as far as it was written. -/
theorem Document.ends_saveUnder {d : Option Disruption} {document : Value} {format : Option String}
    {r : Except Problem Unit} (h : (saveUnder d path document format).Ends folder r g) :
    ((∃ p, r = .error p) ∧ g.files = folder.files)
      ∨ (folder.Opens path ∧ r = (written d path document format).complete.map (fun _ => ())
        ∧ g.files = folder.files.put (Path.join (Path.parts path)) (written d path document format).text) := by
  -- Stage by stage: the directory, the file, and the note that it was written.
  rcases Filing.ends_bind h with ⟨p, rfl, hmake⟩ | ⟨⟨⟩, made, hmake, h⟩
  · exact .inl ⟨⟨p, rfl⟩, (Filing.ends_makeDirectoryFor hmake).1⟩
  obtain ⟨hfiles, hmade⟩ := Filing.ends_makeDirectoryFor hmake
  rcases Filing.ends_bind h with ⟨p, rfl, hwrite⟩ | ⟨⟨⟩, left, hwrite, h⟩
  · rcases Filing.ends_writeFile (Filing.ends_onProblem hwrite) with ⟨-, hg⟩ | ⟨hopen, hresult, hg⟩
    · exact .inl ⟨⟨p, rfl⟩, hg.trans hfiles⟩
    · exact .inr ⟨⟨made, hmade rfl, hopen⟩, hresult, by rw [hg, hfiles]; rfl⟩
  · obtain ⟨hnote, rfl⟩ := Filing.ends_ofNoted h
    rcases Filing.ends_writeFile (Filing.ends_onProblem hwrite) with ⟨⟨p, hp⟩, -⟩ | ⟨hopen, hresult, hg⟩
    · cases hp
    · exact .inr ⟨⟨made, hmade rfl, hopen⟩, hnote.symm.trans hresult, by rw [hg, hfiles]; rfl⟩

/-- The stubs were rendered and their file was opened, but the writing was disrupted: the file holds the beginning of
    the stub module. -/
structure Catalog.StubsDisrupted (c : Catalog) (d : Option Disruption) (folder after : Folder) (p : Problem)
    (path : String) : Prop where
  opens : folder.Opens path
  disrupted : ∃ text disruption, c.stubModule.result = .ok text ∧ d = some disruption
    ∧ disruption.kept.toList <+: text.toList ∧ p = disruption.problem
    ∧ after.files = folder.files.put (Path.join (Path.parts path)) disruption.kept

/-- When the stubs fail no file changes but their own, and that one only when it was opened and the writing was
    disrupted. -/
theorem Catalog.files_of_saveStubs_error {c : Catalog} {d : Option Disruption} {p : Problem}
    (h : (c.saveStubs d path).Ends folder (.error p) g) :
    g.files = folder.files ∨ c.StubsDisrupted d folder g p path := by
  rcases Filing.ends_bind h with ⟨q, -, htext⟩ | ⟨text, left, htext, h⟩
  · obtain ⟨-, rfl⟩ := Filing.ends_ofNoted htext
    exact .inl rfl
  obtain ⟨hrendered, rfl⟩ := Filing.ends_ofNoted htext
  rcases Filing.ends_bind h with ⟨q, -, hmake⟩ | ⟨⟨⟩, made, hmake, h⟩
  · exact .inl (Filing.ends_makeDirectoryFor hmake).1
  obtain ⟨hfiles, hmade⟩ := Filing.ends_makeDirectoryFor hmake
  rcases Filing.ends_bind h with ⟨q, hq, hwrite⟩ | ⟨⟨⟩, written, -, h⟩
  · cases hq
    rcases Filing.ends_writeFile hwrite with ⟨-, hg⟩ | ⟨hopen, hresult, hg⟩
    · exact .inl (hg.trans hfiles)
    · -- The module is complete, so that the problem can only be one of the writing.
      cases d with
      | none => cases hresult
      | some disruption =>
        by_cases hkept : disruption.kept.toList.isPrefixOf text.toList = true
        · rw [Output.disrupted, Output.piece, if_pos hkept] at hresult hg
          refine .inr ⟨⟨made, hmade rfl, hopen⟩, text, disruption, hrendered, rfl,
            List.isPrefixOf_iff_prefix.1 hkept, Except.error.inj hresult, by rw [hg, hfiles]⟩
        · rw [Output.disrupted, Output.piece, if_neg hkept] at hresult
          cases hresult
  · cases (Filing.ends_ofNoted h).1

/-! ### The export -/

/-- The files when a document has been written completely, where one is asked for. -/
def Targets.filesBehind (t : Targets) (document : Value) (files : Table String) : Table String :=
  match asked t.output with
  | none => files
  | some path =>
    files.put (Path.join (Path.parts path)) (Document.content (Document.formatFor path t.format) document).text

/-- An export failed while it wrote the document: the file was opened, and it holds what was written until the
    problem. -/
structure Targets.StoppedInDocument (t : Targets) (d : Option Disruption) (document : Value) (folder after : Folder)
    (p : Problem) (path : String) : Prop where
  asked : Targets.asked t.output = some path
  opens : folder.Opens path
  problem : (Document.written d path document t.format).complete = .error p
  files : after.files
    = folder.files.put (Path.join (Path.parts path)) (Document.written d path document t.format).text

/-- An export failed with its stubs: the document has been written completely where one is asked for, and no other
    file changed but that of the stubs, if the writing of it was disrupted. -/
structure Catalog.StoppedInStubs (c : Catalog) (ds : ExportDisruptions) (document : Value) (t : Targets)
    (folder after : Folder) (p : Problem) (stubs : String) : Prop where
  asked : Targets.asked t.stubs = some stubs
  complete : ∀ path, Targets.asked t.output = some path →
    folder.Opens path ∧ ∃ whole, (Document.written ds.document path document t.format).complete = .ok whole
  files : ∃ left : Folder, left.files = t.filesBehind document folder.files
    ∧ (c.saveStubs ds.stubs stubs).Ends left (.error p) after
    ∧ (after.files = left.files ∨ c.StubsDisrupted ds.stubs left after p stubs)

/-- The arguments were read, and the catalog that they ask for was found and passed all checks. -/
structure Modules.Checked (ms : Modules) (time : String) (arguments : List String) (r : ExportRequest) (c : Catalog)
    (document : Value) : Prop where
  read : CommandLine.read arguments = .run r
  found : ms.findCatalog r.module r.catalog = .ok c
  built : Document.build time c = .ok document
  checked : Document.check document = .ok ()

/-- Where stubs are asked for, they are written behind the document. -/
theorem Catalog.ends_stubs {c : Catalog} {d : Option Disruption} {t : Targets} {p : Problem}
    (h : (do if let some path := Targets.asked t.stubs then c.saveStubs d path : Filing Unit).Ends folder
      (.error p) g) :
    ∃ stubs, Targets.asked t.stubs = some stubs ∧ (c.saveStubs d stubs).Ends folder (.error p) g := by
  cases hstubs : Targets.asked t.stubs with
  | none =>
    rw [hstubs] at h
    cases h.1
  | some stubs =>
    rw [hstubs] at h
    exact ⟨stubs, rfl, h⟩

/-- When the document fails no file changes, or the export stops in it. -/
theorem Targets.files_of_document_error {t : Targets} {d : Option Disruption} {document : Value} {p : Problem}
    (hasked : asked t.output = some path)
    (h : (Document.saveUnder d path document t.format).Ends folder (.error p) g) :
    g.files = folder.files ∨ t.StoppedInDocument d document folder g p path := by
  rcases Document.ends_saveUnder h with ⟨-, hfiles⟩ | ⟨hopens, hresult, hfiles⟩
  · exact .inl hfiles
  · exact .inr ⟨hasked, hopens, Outcome.map_eq_error_iff.1 hresult.symm, hfiles⟩

/-- A document that has been written is complete. -/
theorem Targets.files_of_document_ok {t : Targets} {d : Option Disruption} {document : Value}
    (hasked : asked t.output = some path)
    (h : (Document.saveUnder d path document t.format).Ends folder (.ok ()) g) :
    folder.Opens path ∧ (∃ whole, (Document.written d path document t.format).complete = .ok whole)
      ∧ g.files = t.filesBehind document folder.files := by
  rcases Document.ends_saveUnder h with ⟨⟨p, hp⟩, -⟩ | ⟨hopens, hresult, hfiles⟩
  · cases hp
  · obtain ⟨whole, hwhole, -⟩ := Outcome.map_eq_ok_iff.1 hresult.symm
    refine ⟨hopens, ⟨whole, hwhole⟩, ?_⟩
    rw [hfiles, filesBehind, hasked, Document.written, Output.disrupted_of_complete hwhole]

/-- Writing the files fails in one of them, or no file changes. -/
theorem Catalog.files_of_writeTargets_error {c : Catalog} {ds : ExportDisruptions} {document : Value} {t : Targets}
    {p : Problem} (h : (c.writeTargets ds document t).Ends folder (.error p) g) :
    g.files = folder.files ∨ (∃ path, t.StoppedInDocument ds.document document folder g p path)
      ∨ ∃ stubs, c.StoppedInStubs ds document t folder g p stubs := by
  unfold writeTargets at h
  cases houtput : Targets.asked t.output with
  | none =>
    rw [houtput] at h
    obtain ⟨stubs, hstubs, hsave⟩ := ends_stubs h
    have hbehind : t.filesBehind document folder.files = folder.files := by rw [Targets.filesBehind, houtput]
    -- Without a document the stubs are written to the folder as it was.
    refine .inr (.inr ⟨stubs, hstubs, by simp [houtput], folder, hbehind.symm, hsave, ?_⟩)
    exact files_of_saveStubs_error hsave
  | some path =>
    rw [houtput] at h
    rcases Filing.ends_bind h with ⟨q, hq, hsave⟩ | ⟨⟨⟩, left, hsave, h⟩
    · cases hq
      exact (Targets.files_of_document_error houtput hsave).imp_right fun hstopped => .inl ⟨path, hstopped⟩
    · obtain ⟨stubs, hstubs, hend⟩ := ends_stubs h
      obtain ⟨hopens, hwhole, hbehind⟩ := Targets.files_of_document_ok houtput hsave
      -- The stubs come second, so the document is complete by then.
      refine .inr (.inr ⟨stubs, hstubs, ?_, left, hbehind, hend, files_of_saveStubs_error hend⟩)
      intro other hother
      obtain rfl := Option.some.inj (houtput.symm.trans hother)
      exact ⟨hopens, hwhole⟩

/-- Before the targets are written no file changes. -/
theorem Catalog.files_of_exportUnder_error {ds : ExportDisruptions} {time : String} {t : Targets} {c : Catalog}
    {p : Problem} (h : (c.exportUnder ds time t).Ends folder (.error p) g) :
    g.files = folder.files ∨ ∃ document, Document.build time c = .ok document ∧ Document.check document = .ok ()
      ∧ ((∃ path, t.StoppedInDocument ds.document document folder g p path)
        ∨ ∃ stubs, c.StoppedInStubs ds document t folder g p stubs) := by
  rcases Filing.ends_bind h with ⟨q, -, hdefined⟩ | ⟨defined, left, hdefined, h⟩
  · obtain ⟨-, rfl⟩ := Filing.ends_ofNoted hdefined
    exact .inl rfl
  obtain ⟨hbuilt, rfl⟩ := Filing.ends_ofNoted hdefined
  rcases Filing.ends_bind h with ⟨q, -, hcheck⟩ | ⟨⟨⟩, left, hcheck, h⟩
  · obtain ⟨-, rfl⟩ := Filing.ends_ofNoted hcheck
    exact .inl rfl
  obtain ⟨hpassed, rfl⟩ := Filing.ends_ofNoted hcheck
  rcases Filing.ends_bind h with ⟨q, hq, hnote⟩ | ⟨⟨⟩, left, hnote, h⟩
  · cases hnote.1
  obtain ⟨-, rfl⟩ := Filing.ends_ofNoted hnote
  rcases Filing.ends_bind h with ⟨q, hq, hwrite⟩ | ⟨⟨⟩, left, hwrite, h⟩
  · cases hq
    rcases files_of_writeTargets_error hwrite with hfiles | hstopped
    · exact .inl hfiles
    · have hdefinitions : Document.definitions c = .ok defined := hbuilt
      have hdocument : Document.build time c = .ok (Document.ofDefinitions time defined) := by
        rw [Document.build, hdefinitions]
        rfl
      exact .inr ⟨_, hdocument, hpassed, hstopped⟩
  · cases h.1

/-- Before the catalog has been found no file changes. -/
theorem Modules.files_of_exportRequested_error {ms : Modules} {ds : ExportDisruptions} {time : String}
    {r : ExportRequest} {p : Problem} (h : (ms.exportRequested ds time r).Ends folder (.error p) g) :
    g.files = folder.files ∨ ∃ c document, ms.findCatalog r.module r.catalog = .ok c
      ∧ Document.build time c = .ok document ∧ Document.check document = .ok ()
      ∧ ((∃ path, r.targets.StoppedInDocument ds.document document folder g p path)
        ∨ ∃ stubs, c.StoppedInStubs ds document r.targets folder g p stubs) := by
  rcases Filing.ends_bind h with ⟨q, -, hfind⟩ | ⟨c, left, hfind, h⟩
  · obtain ⟨-, rfl⟩ := Filing.ends_ofNoted hfind
    exact .inl rfl
  obtain ⟨hfound, rfl⟩ := Filing.ends_ofNoted hfind
  rcases Filing.ends_bind h with ⟨q, hq, hexport⟩ | ⟨document, left, -, h⟩
  · cases hq
    rcases Catalog.files_of_exportUnder_error hexport with hfiles | ⟨document, hstopped⟩
    · exact .inl hfiles
    · exact .inr ⟨c, document, hfound, hstopped⟩
  · cases h.1

end

/-- An export that fails leaves every file as it was, unless the arguments were read, the catalog was found and passed
    all checks, and a file was opened for writing.  If that is the document's file, it holds what was written until the
    problem and no other file changes.  If the document has been written or none is asked for, the problem is one of the
    stubs: the document has been written as a whole, and behind it no file changes but that of the stubs, which holds
    the beginning of the stub module when its writing was disrupted. -/
theorem Modules.files_of_failed_export (ms : Modules) (time : String) (arguments : List String) (folder : Folder)
    (ds : ExportDisruptions)
    (hfailed : ∀ s, (ms.runExport time arguments folder ds).1 = .ok s → s.exit ≠ 0) :
    (ms.runExport time arguments folder ds).2.files = folder.files
      ∨ ∃ r c document p, ms.Checked time arguments r c document
        ∧ (ms.exportRequested ds time r folder).1.result = .error p
        ∧ ((∃ path, r.targets.StoppedInDocument ds.document document folder
              (ms.runExport time arguments folder ds).2 p path)
          ∨ ∃ stubs, c.StoppedInStubs ds document r.targets folder
              (ms.runExport time arguments folder ds).2 p stubs) := by
  unfold runExport at hfailed ⊢
  cases hread : CommandLine.read arguments with
  | help => exact .inl rfl
  | misuse => exact .inl rfl
  | run r =>
    rw [hread] at hfailed
    dsimp only at hfailed ⊢
    cases hresult : (ms.exportRequested ds time r folder).1.result with
    | ok a =>
      -- An export with a result ends with the exit code of success.
      obtain ⟨s, hs, hexit⟩ : ∃ s, (r.conclude (ms.exportRequested ds time r folder).1).map
          (fun end_ => Session.ofNotices end_.1 r.verbosity end_.2) = .ok s ∧ s.exit = 0 := by
        rw [ExportRequest.conclude, hresult]
        exact ⟨_, rfl, rfl⟩
      exact absurd hexit (hfailed s hs)
    | error p =>
      have hend : (ms.exportRequested ds time r).Ends folder (.error p) (ms.exportRequested ds time r folder).2 :=
        ⟨hresult, rfl⟩
      rcases files_of_exportRequested_error hend with hfiles | ⟨c, document, hfound, hbuilt, hpassed, hstopped⟩
      · exact .inl hfiles
      · exact .inr ⟨r, c, document, p, ⟨hread, hfound, hbuilt, hpassed⟩, hresult, hstopped⟩

namespace Modules.Failing

/-- A module with a catalog of pages. -/
def modules : Modules :=
  [{ name := "shapes", members := [("catalog", .catalog (Catalog.Single.catalog "Page" "body" "A page."))] }]

/-- The document is asked for, and stubs under the name of a directory. -/
def overDirectory : List String := ["--module", "shapes", "--output", "doc.json", "--stubs", "out"]

/-- Stubs are asked for, under the name of a file. -/
def overFile : List String := ["--module", "shapes", "--stubs", "pages.py"]

/-- A folder with a directory and a file. -/
def folder : Folder := { directories := ["out"], files := [("pages.py", "old")] }

/-- Nothing of the stubs gets into their file, as it is when a character of them has no encoding. -/
def disruptions : ExportDisruptions := { stubs := some { kept := "", problem := .unencodable 0xD800 240 } }

/-- The message of the problem that ends the writing of the stubs. -/
def unencodable : String :=
  "'utf-8' codec can't encode character '\\ud800' in position 240: surrogates not allowed"

/-- The export over a directory ends with a failure. -/
theorem exists_exit : ∃ s, (modules.runExport "now" overDirectory folder).1 = .ok s ∧ s.exit = 1 := by
  refine ⟨_, rfl, ?_⟩
  decide +kernel

/-- It leaves the document behind. -/
theorem keys_files :
    Table.keys (modules.runExport "now" overDirectory folder).2.files = ["pages.py", "doc.json"] := by
  decide +kernel

/-- Where the stubs are not encoded, the problem leaves the program. -/
theorem exists_problem :
    ∃ p, (modules.runExport "now" overFile folder disruptions).1 = .error p ∧ p.message = unencodable := by
  have hmessage : (match (modules.runExport "now" overFile folder disruptions).1 with
      | .error p => p.message == unencodable
      | .ok _ => false) = true := by
    decide +kernel
  cases hrun : (modules.runExport "now" overFile folder disruptions).1 with
  | error p =>
    rw [hrun] at hmessage
    exact ⟨p, rfl, eq_of_beq hmessage⟩
  | ok s =>
    rw [hrun] at hmessage
    cases hmessage

/-- The module that was there is gone. -/
theorem files_overFile :
    (modules.runExport "now" overFile folder disruptions).2.files = [("pages.py", "")] := by
  decide +kernel

/-- Stubs that cannot be written leave the document alone that has been written before them. -/
theorem files_of_failed_export_pages :
    (∀ s, (modules.runExport "now" overDirectory folder).1 = .ok s → s.exit ≠ 0)
      ∧ ∃ r c document p, modules.Checked "now" overDirectory r c document
        ∧ (modules.exportRequested {} "now" r folder).1.result = .error p
        ∧ ((∃ path, r.targets.StoppedInDocument none document folder
              (modules.runExport "now" overDirectory folder).2 p path)
          ∨ ∃ stubs, c.StoppedInStubs {} document r.targets folder
              (modules.runExport "now" overDirectory folder).2 p stubs) := by
  have hfailed : ∀ s, (modules.runExport "now" overDirectory folder).1 = .ok s → s.exit ≠ 0 := by
    intro s hs
    obtain ⟨t, ht, hexit⟩ := exists_exit
    obtain rfl := Except.ok.inj (ht.symm.trans hs)
    rw [hexit]
    decide
  refine ⟨hfailed, (Modules.files_of_failed_export modules "now" overDirectory folder {} hfailed).resolve_left ?_⟩
  -- The document is there now, and was not before.
  intro hsame
  have hkeys := keys_files
  rw [hsame] at hkeys
  cases hkeys

/-- An export that fails has changed a file.  Over a directory the stubs cannot be written, and the document is there
    afterwards; and stubs that cannot be encoded leave an empty file where an older module was. -/
theorem files_changed_by_failed_export :
    ((∃ s, (modules.runExport "now" overDirectory folder).1 = .ok s ∧ s.exit = 1)
        ∧ Table.keys folder.files = ["pages.py"]
        ∧ Table.keys (modules.runExport "now" overDirectory folder).2.files = ["pages.py", "doc.json"])
      ∧ (∃ p, (modules.runExport "now" overFile folder disruptions).1 = .error p
        ∧ p.message = unencodable)
      ∧ folder.files = [("pages.py", "old")]
      ∧ (modules.runExport "now" overFile folder disruptions).2.files = [("pages.py", "")] :=
  ⟨⟨exists_exit, rfl, keys_files⟩, exists_problem, rfl, files_overFile⟩

end Modules.Failing

end DataShapes
