import DataShapes.Files
import Mathlib.Data.List.Infix
import Mathlib.Data.List.TakeWhile

/-!
# Names and suffixes of paths

A path is cut at its slashes, and the pieces that lead somewhere are its steps.  A path names a file when a
proper name stands behind its last slash; that name is then the last step, the rest of the path leads to the
directory of the file, and the suffix is what the name ends with.

Main definitions:
* `Path.steps`: the pieces of a path without empty ones and points;
* `Path.lastPiece`, `Path.NamesFile`: what stands behind the last slash, and that it is a name.

Main statements:
* `Path.parts_tidy`: a tidy path leads to the same place;
* `Path.parts_eq_concat`: a file lies in the directory above it;
* `Path.suffix_eq_iff`: a suffix stands behind a part of the name that is not empty.
-/

namespace DataShapes

namespace Path

/-! ### Pieces -/

/-- The pieces are those between the slashes. -/
theorem pieces_eq_splitOn (cs : List Char) : pieces cs = cs.splitOn '/' := by
  induction cs with
  | nil => rfl
  | cons c cs ih =>
    have hcons : (c :: cs).splitOn '/' =
        if c == '/' then [] :: cs.splitOn '/' else (cs.splitOn '/').modifyHead (List.cons c) :=
      List.splitOnP_cons_eq_if_modifyHead c cs
    rw [pieces, hcons, ih]
    by_cases hc : c = '/'
    · simp [hc]
    · obtain ⟨p, ps, hps⟩ := List.exists_cons_of_ne_nil (List.splitOn_ne_nil '/' cs)
      simp [hc, hps]

/-- A slash separates the pieces in front of it from those behind it. -/
theorem pieces_append_slash (a b : List Char) : pieces (a ++ '/' :: b) = pieces a ++ pieces b := by
  simp only [pieces_eq_splitOn]
  exact List.splitOnP_append_cons a b (by simp)

/-- Without a slash there is one piece. -/
theorem pieces_of_not_mem {cs : List Char} (h : '/' ∉ cs) : pieces cs = [cs] := by
  rw [pieces_eq_splitOn]
  exact List.splitOn_eq_singleton h

/-- No piece holds a slash. -/
theorem not_mem_of_mem_pieces {cs p : List Char} (h : p ∈ pieces cs) : '/' ∉ p := by
  fun_induction pieces cs generalizing p with
  | case1 =>
    rw [List.mem_singleton.1 h]
    exact List.not_mem_nil
  | case2 cs ih =>
    rcases List.mem_cons.1 h with rfl | h
    · exact List.not_mem_nil
    · exact ih h
  | case3 c cs hc hps ih =>
    rw [List.mem_singleton.1 h]
    simpa using Ne.symm hc
  -- The character belongs to the first piece.
  | case4 c cs hc q ps hps ih =>
    rw [hps] at ih
    rcases List.mem_cons.1 h with rfl | h
    · have hq : '/' ∉ q := ih List.mem_cons_self
      simp [hq, Ne.symm hc]
    · exact ih (List.mem_cons_of_mem _ h)

theorem toList_join (names : List String) :
    (join names).toList = ['/'].intercalate (names.map String.toList) := String.toList_intercalate

/-- Names without slashes are the pieces of the path that joins them. -/
theorem pieces_join {names : List String} (hne : names ≠ []) (h : ∀ n ∈ names, '/' ∉ n.toList) :
    pieces (join names).toList = names.map String.toList := by
  rw [toList_join, pieces_eq_splitOn]
  refine List.splitOn_intercalate '/' ?_ (by simpa using hne)
  simpa using h

/-- Names without slashes are told apart when they are joined. -/
theorem join_injective {as bs : List String} (ha : as ≠ []) (hb : bs ≠ [])
    (has : ∀ n ∈ as, '/' ∉ n.toList) (hbs : ∀ n ∈ bs, '/' ∉ n.toList) (h : join as = join bs) :
    as = bs := by
  have hmap : as.map String.toList = bs.map String.toList := by
    rw [← pieces_join ha has, ← pieces_join hb hbs, h]
  exact List.map_injective_iff.2 (fun _ _ => String.toList_inj.1) hmap

/-! ### Steps -/

/-- The pieces that lead somewhere: no empty ones and no points. -/
def steps (cs : List Char) : List (List Char) := (pieces cs).filter fun p => p != [] && p != ['.']

/-- A step is a piece that is neither empty nor a point. -/
theorem mem_steps {cs p : List Char} : p ∈ steps cs ↔ p ∈ pieces cs ∧ p ≠ [] ∧ p ≠ ['.'] := by
  simp [steps]

/-- A slash separates the steps in front of it from those behind it. -/
theorem steps_append_slash (a b : List Char) : steps (a ++ '/' :: b) = steps a ++ steps b := by
  unfold steps
  rw [pieces_append_slash, List.filter_append]

/-- Slashes at the end lead nowhere. -/
theorem steps_append_slashes (a : List Char) {b : List Char} (h : ∀ c ∈ b, c = '/') :
    steps (a ++ b) = steps a := by
  induction b generalizing a with
  | nil => rw [List.append_nil]
  | cons c b ih =>
    have hc : c = '/' := h c List.mem_cons_self
    have hb : ∀ d ∈ b, d = '/' := fun d hd => h d (List.mem_cons_of_mem _ hd)
    have hnil : steps b = steps [] := ih [] hb
    rw [hc, steps_append_slash, hnil]
    exact List.append_nil _

/-- Only steps count for where the names lead. -/
theorem namesFrom_filter (known : List String) (ps : List (List Char)) :
    namesFrom known (ps.filter fun p => p != [] && p != ['.']) = namesFrom known ps := by
  induction ps generalizing known with
  | nil => rfl
  | cons p ps ih =>
    by_cases hp : p = [] ∨ p = ['.']
    · have hskip : namesFrom known (p :: ps) = namesFrom known ps := by
        rw [namesFrom, if_pos (by simpa using hp)]
      rw [hskip, List.filter_cons_of_neg (by simpa using or_iff_not_imp_left.1 hp), ih]
    · rw [List.filter_cons_of_pos (by simpa [not_or] using hp), namesFrom, namesFrom]
      simp only [ih]

/-- The parts of a path are where its steps lead; nothing lies above the root. -/
theorem parts_eq (path : String) :
    parts path =
      if isAbsolute path then "" :: (namesFrom [] (steps path.toList)).dropWhile (· == "..")
      else namesFrom [] (steps path.toList) := by
  unfold parts steps
  rw [namesFrom_filter]

/-- Names come from steps and hold no slash either. -/
theorem not_mem_of_mem_namesFrom {known : List String} {ps : List (List Char)}
    (hknown : ∀ n ∈ known, '/' ∉ n.toList) (hps : ∀ p ∈ ps, '/' ∉ p) :
    ∀ n ∈ namesFrom known ps, '/' ∉ n.toList := by
  induction ps generalizing known with
  | nil => simpa [namesFrom] using hknown
  | cons p ps ih =>
    have hrest : ∀ q ∈ ps, '/' ∉ q := fun q hq => hps q (List.mem_cons_of_mem _ hq)
    unfold namesFrom
    split
    · exact ih hknown hrest
    · -- A step upwards drops a name, and any other one adds its own.
      split
      · exact ih (fun n hn => hknown n (List.mem_of_mem_tail hn)) hrest
      · refine ih ?_ hrest
        intro n hn
        rcases List.mem_cons.1 hn with rfl | hn
        · simpa using hps p List.mem_cons_self
        · exact hknown n hn

/-- No slash is in a part of a path. -/
theorem not_mem_of_mem_parts {path n : String} (h : n ∈ parts path) : '/' ∉ n.toList := by
  have hnames : ∀ n ∈ namesFrom [] (steps path.toList), '/' ∉ n.toList :=
    not_mem_of_mem_namesFrom (by simp) fun p hp => not_mem_of_mem_pieces (mem_steps.1 hp).1
  rw [parts_eq] at h
  split at h
  · rcases List.mem_cons.1 h with rfl | h
    · simp
    · exact hnames n ((List.dropWhile_sublist _).subset h)
  · exact hnames n h

/-! ### Tidy paths -/

theorem tidy_eq (path : String) :
    tidy path =
      if isAbsolute path then "/" ++ join ((steps path.toList).map String.ofList)
      else if (steps path.toList).isEmpty then "."
      else join ((steps path.toList).map String.ofList) := rfl

/-- The steps of a path are the pieces of what joins them. -/
theorem pieces_join_steps {path : String} (h : steps path.toList ≠ []) :
    pieces (join ((steps path.toList).map String.ofList)).toList = steps path.toList := by
  have hslash : ∀ n ∈ (steps path.toList).map String.ofList, '/' ∉ n.toList := by
    intro n hn
    obtain ⟨p, hp, rfl⟩ := List.mem_map.1 hn
    simpa using not_mem_of_mem_pieces (mem_steps.1 hp).1
  rw [pieces_join (by simpa using h) hslash, List.map_map]
  simp [Function.comp_def]

/-- Steps are steps of what joins them. -/
theorem steps_join_steps (path : String) :
    steps (join ((steps path.toList).map String.ofList)).toList = steps path.toList := by
  by_cases h : steps path.toList = []
  · rw [h]
    rfl
  · show List.filter _ (pieces _) = _
    rw [pieces_join_steps h, List.filter_eq_self]
    intro p hp
    simpa using (mem_steps.1 hp).2

/-- Tidying a path changes none of its steps. -/
theorem steps_tidy (path : String) : steps (tidy path).toList = steps path.toList := by
  rw [tidy_eq]
  split
  · -- A slash in front only adds an empty piece.
    rw [String.toList_append]
    have hslash : ∀ cs, steps ("/".toList ++ cs) = steps cs := fun cs => steps_append_slash [] cs
    rw [hslash, steps_join_steps]
  · split
    · have hnil : steps path.toList = [] := by simpa using ‹(steps path.toList).isEmpty = true›
      rw [hnil]
      rfl
    · exact steps_join_steps path

/-- A path that starts with a piece that is not empty is not absolute. -/
theorem isAbsolute_eq_false {path : String} {p : List Char} {ps : List (List Char)}
    (h : pieces path.toList = p :: ps) (hp : p ≠ []) : isAbsolute path = false := by
  unfold isAbsolute
  rw [decide_eq_false_iff_not]
  intro hhead
  obtain ⟨cs, hcs⟩ := List.head?_eq_some_iff.1 hhead
  rw [hcs, pieces, if_pos rfl] at h
  exact hp (List.cons_eq_cons.1 h).1.symm

/-- Nor whether it begins at the root. -/
theorem isAbsolute_tidy (path : String) : isAbsolute (tidy path) = isAbsolute path := by
  rw [tidy_eq]
  split
  · rename_i habs
    rw [habs, isAbsolute, String.toList_append]
    rfl
  · rename_i habs
    rw [Bool.not_eq_true] at habs
    rw [habs]
    split
    · rfl
    · -- A tidy path that is not empty begins with its first step.
      have hne : steps path.toList ≠ [] := by simpa using ‹¬(steps path.toList).isEmpty = true›
      obtain ⟨p, ps, hps⟩ := List.exists_cons_of_ne_nil hne
      have hpieces := pieces_join_steps hne
      have hp : p ∈ steps path.toList := by
        rw [hps]
        exact List.mem_cons_self
      exact isAbsolute_eq_false (hpieces.trans hps) (mem_steps.1 hp).2.1

/-- A tidy path leads to the same place. -/
theorem parts_tidy (path : String) : parts (tidy path) = parts path := by
  rw [parts_eq, parts_eq, isAbsolute_tidy, steps_tidy]

/-! ### Files -/

/-- What stands behind the last slash. -/
def lastPiece (path : String) : List Char := (path.toList.reverse.takeWhile (· != '/')).reverse

/-- What stands in front of it, with the slash. -/
def front (path : String) : List Char := (path.toList.reverse.dropWhile (· != '/')).reverse

/-- The path names a file: behind its last slash stands a name, and not one of a directory. -/
def NamesFile (path : String) : Prop := lastPiece path ∉ [[], ['.'], ['.', '.']]

instance (path : String) : Decidable (NamesFile path) :=
  inferInstanceAs (Decidable (lastPiece path ∉ [[], ['.'], ['.', '.']]))

/-- A path is what stands behind its last slash with what stands in front. -/
theorem toList_eq (path : String) : path.toList = front path ++ lastPiece path := by
  unfold front lastPiece
  rw [← List.reverse_append, List.takeWhile_append_dropWhile, List.reverse_reverse]

/-- No slash is in the last piece. -/
theorem not_mem_lastPiece (path : String) : '/' ∉ lastPiece path := by
  intro h
  have hmem := List.mem_reverse.1 h
  simpa using List.mem_takeWhile_imp hmem

/-- What stands in front ends with a slash. -/
theorem front_eq (path : String) : front path = [] ∨ ∃ cs, front path = cs ++ ['/'] := by
  unfold front
  cases hcs : path.toList.reverse.dropWhile (· != '/') with
  | nil => exact .inl rfl
  | cons c cs =>
    have hc : c = '/' := by
      have hhead := List.head?_dropWhile_not (· != '/') path.toList.reverse
      rw [hcs] at hhead
      simpa using hhead
    exact .inr ⟨cs.reverse, by rw [hc, List.reverse_cons]⟩

namespace NamesFile

variable {path : String}

theorem ne_nil (h : NamesFile path) : lastPiece path ≠ [] := by
  intro hnil
  exact h (by simp [hnil])

theorem ne_point (h : NamesFile path) : lastPiece path ≠ ['.'] := by
  intro hpoint
  exact h (by simp [hpoint])

theorem ne_points (h : NamesFile path) : lastPiece path ≠ ['.', '.'] := by
  intro hpoints
  exact h (by simp [hpoints])

/-- The name of a file is a step. -/
theorem steps_lastPiece (h : NamesFile path) : steps (lastPiece path) = [lastPiece path] := by
  unfold steps
  rw [pieces_of_not_mem (not_mem_lastPiece path)]
  simp [h.ne_nil, h.ne_point]

/-- The name is the last step. -/
theorem steps_eq (h : NamesFile path) : steps path.toList = steps (front path) ++ [lastPiece path] := by
  rcases front_eq path with hfront | ⟨cs, hfront⟩
  · rw [toList_eq, hfront]
    exact h.steps_lastPiece
  · have hcs : steps (cs ++ ['/']) = steps cs := steps_append_slashes cs (by simp)
    rw [toList_eq, hfront, hcs, ← h.steps_lastPiece, List.append_assoc]
    exact steps_append_slash cs _

/-- The name of a file is the last piece of its path. -/
theorem name_eq (h : NamesFile path) : name path = String.ofList (lastPiece path) := by
  show String.ofList ((steps path.toList).getLast?.getD []) = _
  rw [h.steps_eq]
  simp

/-- The end of a path without a slash is that of the name. -/
theorem isSuffix_iff (h : NamesFile path) {ending : List Char} (hslash : '/' ∉ ending) :
    ending <:+ path.toList ↔ ending <:+ (name path).toList := by
  rw [h.name_eq, String.toList_ofList]
  have hlast : lastPiece path <:+ path.toList := ⟨front path, (toList_eq path).symm⟩
  constructor
  · intro hending
    rcases List.suffix_or_suffix_of_suffix hending hlast with hin | ⟨more, rfl⟩
    · exact hin
    · -- A longer ending would reach the slash.
      rcases front_eq path with hfront | ⟨cs, hfront⟩
      · rwa [toList_eq, hfront] at hending
      · rw [toList_eq, List.suffix_append_self_iff, hfront] at hending
        rcases List.eq_nil_or_concat more with rfl | ⟨init, c, rfl⟩
        · exact List.suffix_rfl
        · obtain ⟨before, hbefore⟩ := hending
          have hc : c = '/' := by
            have hends := congrArg List.getLast? hbefore
            simpa using hends
          exact absurd (by simp [hc]) hslash
  · exact fun hname => hname.trans hlast

end NamesFile

/-! ### Directories -/

/-- The directory is what stands in front of the name, without the slashes at its end. -/
theorem front_eq_directory (path : String) :
    ∃ slashes, (∀ c ∈ slashes, c = '/') ∧ front path = (directory path).toList ++ slashes ∧
      (directory path = "" → front path = []) := by
  unfold directory front
  generalize path.toList.reverse.dropWhile (· != '/') = head
  dsimp only
  -- Slashes at the end are cut off unless there is nothing else.
  by_cases htrimmed : (head.dropWhile (· == '/')).isEmpty = true
  · exact ⟨[], by simp, by simp [htrimmed], by simp [htrimmed]⟩
  · refine ⟨(head.takeWhile (· == '/')).reverse, ?_, ?_, ?_⟩
    · intro c hc
      simpa using List.mem_takeWhile_imp (List.mem_reverse.1 hc)
    · rw [if_neg htrimmed, String.toList_ofList, ← List.reverse_append, List.takeWhile_append_dropWhile]
    · rw [if_neg htrimmed]
      intro hempty
      exact absurd (by simpa using hempty) (by simpa using htrimmed)

/-- A path is absolute when its directory is. -/
theorem isAbsolute_directory {path : String} (h : directory path ≠ "") :
    isAbsolute path = isAbsolute (directory path) := by
  obtain ⟨slashes, -, hfront, -⟩ := front_eq_directory path
  have hne : (directory path).toList ≠ [] := by simpa using h
  unfold isAbsolute
  rw [toList_eq, hfront, List.append_assoc, List.head?_append_of_ne_nil _ hne]

/-- The names that lead to the directory of a file. -/
def directoryParts (path : String) : List String :=
  if (directory path).isEmpty then [] else parts (directory path)

namespace NamesFile

variable {path : String}

/-- A name that is none of a directory is added to the names in front of it. -/
theorem namesFrom_concat (h : NamesFile path) (known : List String) (ps : List (List Char)) :
    namesFrom known (ps ++ [lastPiece path]) = namesFrom known ps ++ [name path] := by
  -- Names in front of it may be taken back by `..`, so `known` changes on the way.
  induction ps generalizing known with
  | nil =>
    rw [List.nil_append, h.name_eq]
    simp [namesFrom, h.ne_nil, h.ne_point, h.ne_points]
  | cons p ps ih =>
    rw [List.cons_append, namesFrom, namesFrom]
    simp only [ih]
    split
    · rfl
    · split <;> rfl

/-- The name of a file does not lead upwards. -/
theorem name_ne_points (h : NamesFile path) : name path ≠ ".." := by
  rw [h.name_eq]
  intro hpoints
  exact h.ne_points (by simpa using congrArg String.toList hpoints)

/-- The name of a file is not empty. -/
theorem name_ne_empty (h : NamesFile path) : name path ≠ "" := by
  rw [h.name_eq]
  intro hempty
  exact h.ne_nil (by simpa using hempty)

/-- A file lies in its directory under its name. -/
theorem parts_eq_concat (h : NamesFile path) : parts path = directoryParts path ++ [name path] := by
  obtain ⟨slashes, hslashes, hfront, hempty⟩ := front_eq_directory path
  unfold directoryParts
  by_cases hdirectory : directory path = ""
  · -- Without a directory the path is its last piece, since slashes alone would make one.
    have hnil := hempty hdirectory
    have hpath : path.toList = lastPiece path := by rw [toList_eq, hnil, List.nil_append]
    have hpieces : pieces path.toList = [lastPiece path] := by
      rw [hpath]
      exact pieces_of_not_mem (not_mem_lastPiece path)
    have hrelative : isAbsolute path = false := isAbsolute_eq_false hpieces h.ne_nil
    rw [if_pos (by simpa using hdirectory), parts_eq, hrelative, h.steps_eq, hnil]
    exact h.namesFrom_concat [] (steps [])
  · have hsteps : steps path.toList = steps (directory path).toList ++ [lastPiece path] := by
      rw [h.steps_eq, hfront, steps_append_slashes _ hslashes]
    rw [if_neg (by simpa using hdirectory), parts_eq, parts_eq, isAbsolute_directory hdirectory, hsteps,
      h.namesFrom_concat]
    split
    · -- Of the names behind the root only leading `..` are dropped.
      have hkept : [name path].dropWhile (· == "..") = [name path] := by simp [h.name_ne_points]
      rw [List.dropWhile_append]
      split
      · have hnone := List.isEmpty_iff.1 ‹_›
        rw [hkept, hnone]
        rfl
      · rfl
    · rfl

end NamesFile

/-! ### Suffixes -/

/-- A suffix begins with the last point of the name, and something stands in front of it. -/
theorem suffix_eq_iff (path : String) {ext : List Char} (hne : ext ≠ []) (hpoint : '.' ∉ ext) :
    suffix path = String.ofList ('.' :: ext) ↔
      ∃ stem, stem ≠ [] ∧ (name path).toList = stem ++ '.' :: ext := by
  have hsplit : ∀ r : List Char,
      r.drop (r.takeWhile (· != '.')).length = r.dropWhile (· != '.') := by
    intro r
    have hr := List.takeWhile_append_dropWhile (p := (· != '.')) (l := r)
    exact (congrArg (List.drop _) hr.symm).trans (List.drop_left' rfl)
  have hname : (name path).toList = (name path).toList.reverse.reverse := (List.reverse_reverse _).symm
  -- The suffix is looked for from behind, so from here on the name is read backwards, as `r`.
  unfold suffix
  rw [hname]
  generalize (name path).toList.reverse = r
  simp only [hsplit, List.reverse_reverse]
  constructor
  · intro h
    split at h
    · rename_i c rest hdrop
      split at h
      · simp at h
      · have hext : (r.takeWhile (· != '.')).reverse = ext := by simpa using congrArg String.toList h
        refine ⟨(c :: rest).reverse, by simp, ?_⟩
        rw [← List.takeWhile_append_dropWhile (p := (· != '.')) (l := r), hdrop, List.reverse_append, hext]
        simp
    · simp at h
  · rintro ⟨stem, hstem, hr⟩
    obtain ⟨c, rest, hrest⟩ := List.exists_cons_of_ne_nil (by simpa using hstem : stem.reverse ≠ [])
    have hr' : r = ext.reverse ++ '.' :: c :: rest := by
      rw [← hrest, ← r.reverse_reverse, hr]
      simp
    have hall : ∀ a ∈ ext.reverse, (a != '.') = true := by
      intro a ha
      simpa using fun heq : a = '.' => hpoint (heq ▸ List.mem_reverse.1 ha)
    have htake : r.takeWhile (· != '.') = ext.reverse := by
      rw [hr', List.takeWhile_append_of_pos hall]
      simp
    have hdrop : r.dropWhile (· != '.') = '.' :: c :: rest := by
      rw [hr', List.dropWhile_append_of_pos hall]
      simp
    rw [htake, hdrop]
    simp [hne]

/-- A suffix is an ending of the name that is not all of it. -/
theorem suffix_eq_iff_isSuffix (path : String) (ext : List Char) (hne : ext ≠ []) (hpoint : '.' ∉ ext) :
    suffix path = String.ofList ('.' :: ext) ↔
      '.' :: ext <:+ (name path).toList ∧ name path ≠ String.ofList ('.' :: ext) := by
  rw [suffix_eq_iff path hne hpoint]
  constructor
  · rintro ⟨stem, hstem, hname⟩
    refine ⟨⟨stem, hname.symm⟩, ?_⟩
    intro hall
    rw [hall, String.toList_ofList] at hname
    exact hstem (by simpa using hname)
  · rintro ⟨⟨stem, hname⟩, hmore⟩
    refine ⟨stem, ?_, hname.symm⟩
    rintro rfl
    exact hmore (by rw [← String.toList_inj, String.toList_ofList]; exact hname.symm)

end Path

end DataShapes
