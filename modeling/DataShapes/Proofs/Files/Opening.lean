import DataShapes.Proofs.Files.Paths

/-!
# Opening files

A file is opened for writing after the directories above it have been made.  In a folder without files
nothing stands in the way of them, so every path that names a file can be opened there; and a file that was
written is read back under its tidy path.

Main definitions:
* `Folder.Opens`: a file can be opened for writing.

Main statements:
* `Folder.opens_of_no_files`: only a directory under its own name keeps a file from being opened;
* `Folder.read_write`: what was written is read;
* `Filing.bind_of_ok`: a computation behind one that succeeded.
-/

namespace DataShapes

namespace Folder

open DataShapes.Path

/-- The directories above a file can be made, and then the file can be opened for writing. -/
def Opens (f : Folder) (path : String) : Prop :=
  ∃ g, Filing.makeDirectoryFor path f = (pure (), g) ∧ g.checkWritable path = .ok ()

/-! ### Making directories -/

theorem isDirectory_nil (f : Folder) : f.isDirectory [] = true := rfl

/-- In a folder without files the directories on a path can be made.  What is a directory afterwards was
    one before or lies on the path. -/
theorem makeFrom_of_no_files {f : Folder} (hf : f.files = []) {made : List String}
    (hmade : f.isDirectory made = true) (names : List String) :
    ∃ g, f.makeFrom made names = .ok g ∧ g.files = [] ∧ g.isDirectory (made ++ names) = true ∧
      ∀ d ∈ g.directories,
        d ∈ f.directories ∨ ∃ above, above ≠ [] ∧ above <+: made ++ names ∧ d = join above := by
  induction names generalizing f made with
  | nil =>
    refine ⟨f, rfl, hf, ?_, fun d hd => .inl hd⟩
    rwa [List.append_nil]
  | cons n names ih =>
    have hassoc : made ++ n :: names = (made ++ [n]) ++ names := by simp
    have hfile : f.isFile (made ++ [n]) = false := by
      unfold isFile
      rw [hf]
      rfl
    unfold makeFrom
    -- A directory that is there already is passed; no file can be in the way.
    by_cases hhere : f.isDirectory (made ++ [n]) = true
    · rw [if_pos hhere, hassoc]
      exact ih hf hhere
    · simp only [hhere, hfile, Bool.false_eq_true, if_false]
      have hadded : Folder.isDirectory { f with directories := f.directories ++ [join (made ++ [n])] }
          (made ++ [n]) = true := by simp [isDirectory]
      obtain ⟨g, hg, hfiles, hdirectory, hnew⟩ :=
        ih (f := ⟨f.directories ++ [join (made ++ [n])], f.files⟩) hf hadded
      rw [hassoc]
      refine ⟨g, hg, hfiles, hdirectory, ?_⟩
      intro d hd
      rcases hnew d hd with hd | habove
      · rcases List.mem_append.1 hd with hd | hd
        · exact .inl hd
        · exact .inr ⟨made ++ [n], by simp, List.prefix_append _ _, List.mem_singleton.1 hd⟩
      · exact .inr habove

/-- The directories above a file can be made in a folder without files. -/
theorem makeDirectoryFor_of_no_files {f : Folder} (hf : f.files = []) (path : String) :
    ∃ g, Filing.makeDirectoryFor path f = (pure (), g) ∧ g.isDirectory (directoryParts path) = true ∧
      ∀ d ∈ g.directories,
        d ∈ f.directories ∨ ∃ above, above ≠ [] ∧ above <+: directoryParts path ∧ d = join above := by
  unfold Filing.makeDirectoryFor directoryParts
  -- A path without a directory is one in the folder itself.
  by_cases hempty : (directory path).isEmpty = true
  · simp only [hempty, if_true]
    exact ⟨f, rfl, isDirectory_nil f, fun d hd => .inl hd⟩
  · obtain ⟨g, hg, -, hdirectory, hnew⟩ :=
      makeFrom_of_no_files hf (isDirectory_nil f) (parts (directory path))
    rw [List.nil_append] at hdirectory
    simp only [List.nil_append] at hnew
    simp only [hempty, Bool.false_eq_true, if_false]
    refine ⟨g, ?_, hdirectory, hnew⟩
    rw [makeDirectories, hg]

/-! ### Opening -/

/-- A file whose name is none of a directory does not lie around the folder. -/
theorem isAround_parts {path : String} (h : NamesFile path) : isAround (parts path) = false := by
  rw [h.parts_eq_concat]
  have hroot : directoryParts path ++ [name path] ≠ [""] := by
    intro heq
    have hlast := congrArg List.getLast? heq
    exact h.name_ne_empty (by simpa using hlast)
  simp [isAround, hroot, h.name_ne_points]

/-- The path of a file does not end with a slash. -/
theorem getLast?_ne_slash {path : String} (h : NamesFile path) : path.toList.getLast? ≠ some '/' := by
  intro hslash
  rw [toList_eq, List.getLast?_append_of_ne_nil _ h.ne_nil] at hslash
  exact not_mem_lastPiece path (List.mem_of_getLast? hslash)

/-- In a folder without files a file can be opened, unless its path is that of a directory. -/
theorem opens_of_no_files {f : Folder} {path : String} (hnames : NamesFile path) (hf : f.files = [])
    (hpath : f.isDirectory (parts path) = false) : f.Opens path := by
  obtain ⟨g, hg, habove, hnew⟩ := makeDirectoryFor_of_no_files hf path
  refine ⟨g, hg, ?_⟩
  have hconcat := hnames.parts_eq_concat
  have hempty : path.isEmpty = false := by
    by_contra hpath
    have hnil : path.toList = [] := by simpa using hpath
    rw [toList_eq, List.append_eq_nil_iff] at hnil
    exact hnames.ne_nil hnil.2
  have hdirectory : g.isDirectory (parts path) = false := by
    rw [isDirectory, isAround_parts hnames, Bool.false_or] at hpath ⊢
    rw [List.contains_eq_mem, decide_eq_false_iff_not] at hpath ⊢
    intro hmem
    rcases hnew _ hmem with hold | ⟨above, hne, habove, heq⟩
    · exact hpath hold
    · -- a directory that was made has fewer names than the file
      have hslash : ∀ n ∈ above, '/' ∉ n.toList := by
        intro n hn
        have hmem : n ∈ parts path := by
          rw [hconcat]
          exact List.mem_append_left _ (habove.subset hn)
        exact not_mem_of_mem_parts hmem
      have hsame : parts path = above :=
        join_injective (by simp [hconcat]) hne (fun n hn => not_mem_of_mem_parts hn) hslash heq
      have hlength := habove.length_le
      rw [← hsame, hconcat, List.length_append] at hlength
      exact absurd hlength (by simp)
  have hparent : g.isDirectory (parts path).dropLast = true := by
    rw [hconcat, List.dropLast_concat]
    exact habove
  unfold checkWritable
  simp [hempty, hdirectory, hparent, getLast?_ne_slash hnames]

/-- A directory cannot be opened for writing. -/
theorem isDirectory_of_checkWritable {f : Folder} {path : String} (h : f.checkWritable path = .ok ()) :
    f.isDirectory (parts path) = false := by
  by_contra hdirectory
  unfold checkWritable at h
  simp only [Bool.not_eq_false] at hdirectory
  simp only [hdirectory, if_true] at h
  split at h <;> exact absurd h nofun

/-- What was written into a file is read back under its tidy path. -/
theorem read_write {f : Folder} {path : String} (h : f.checkWritable path = .ok ()) (text : String) :
    (f.write path text).read (tidy path) = .ok text := by
  have hdirectory : f.isDirectory (parts path) = false := isDirectory_of_checkWritable h
  have hwritten : (f.write path text).isDirectory (parts path) = false := hdirectory
  unfold read
  simp [parts_tidy, hwritten, Filing.files_write]

end Folder

namespace Filing

variable {α β : Type} {x : Filing α} {folder g : Folder} {a : α} {notices : List Notice}

/-- After a computation that succeeded the next one goes on in the folder it left. -/
theorem bind_of_ok (h : x folder = (⟨.ok a, notices⟩, g)) (f : α → Filing β) :
    (x >>= f) folder = (⟨(f a g).1.result, notices ++ (f a g).1.notices⟩, (f a g).2) := by
  show andThen x f folder = _
  unfold andThen
  rw [h]

/-- Computations that leave the folder alone do so one after the other. -/
theorem ofNoted_bind (y : Noted α) (f : α → Noted β) (folder : Folder) :
    ((ofNoted y >>= fun a => ofNoted (f a) : Filing β)) folder = (y >>= f, folder) := by
  obtain ⟨result, notices⟩ := y
  cases result <;> rfl

/-- A complete output is written into a file that can be opened, when nothing disrupts the writing. -/
theorem writeFile_of_ok {path : String} {o : Output} (h : folder.checkWritable path = .ok ())
    (ho : o.problem = none) : writeFile none path o folder = (⟨.ok (), []⟩, folder.write path o.text) := by
  unfold writeFile
  rw [h]
  simp [Output.disrupted, Output.complete, ho, Noted.ofExcept, Except.map]

end Filing

end DataShapes
