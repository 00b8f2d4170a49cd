import Mathlib.Data.List.Count
import Mathlib.Data.List.TakeWhile
import ChainHead.Log.Terminal

/-!
# The place of an event

The line of an event names its source file, and a file inside the working directory is meant to be
named relative to it.  A file is inside a directory if the names of its path begin with all those
of the directory's (`Place.Contains`).  That is more than one text beginning with the other, because
a text may end in the middle of a name.

A line shows the right place (`Event.ShowsPlace`) unless the path of the file begins with the path
of the directory and goes on with the last name of it (`Place.RunsOn`), as `/usrlocal/x.rs` does
with `/usr`.  That nothing else goes wrong is `Event.showsPlace_iff`.
-/

namespace ChainHead.Log

/-! ## Paths -/

namespace Place

/-- The names between the slashes of a path. -/
def names (path : List Char) : List (List Char) := (path.splitOn '/').filter (· ≠ [])

/-- The path is absolute and does not end with a slash, unless it is the root. -/
def IsDirectory (path : String) : Prop :=
  path = "/" ∨ path.toList.head? = some '/' ∧ path.toList.getLast? ≠ some '/'

/-- The path of the file is absolute, and its names begin with all names of the directory. -/
def Contains (directory file : String) : Prop :=
  file.toList.head? = some '/' ∧ names directory.toList <+: names file.toList

/-- The path of the file is that of the directory, slashes, and `rest`.  There is at least one
slash, but the root has it already. -/
def Inside (directory file rest : String) : Prop :=
  rest ≠ "" ∧ rest.toList.head? ≠ some '/' ∧ ∃ slashes, (directory = "/" ∨ 0 < slashes) ∧
    file.toList = directory.toList ++ List.replicate slashes '/' ++ rest.toList

/-- The path of the file begins with that of the directory, and goes on with its last name. -/
def RunsOn (directory file : String) : Prop :=
  directory ≠ "/" ∧ ∃ c rest, c ≠ '/' ∧ file.toList = directory.toList ++ c :: rest

variable {directory file rest : String} {cs ds : List Char}

/-! ### The names of a path -/

@[simp]
lemma names_append_slash (cs ds : List Char) : names (cs ++ '/' :: ds) = names cs ++ names ds := by
  simp [names, List.splitOn_append_cons_self]

lemma names_of_not_mem (hcs : cs ≠ []) (hslash : '/' ∉ cs) : names cs = [cs] := by
  simp [names, List.splitOn_eq_singleton hslash, hcs]

/-- What goes on with a name makes it a longer one. -/
lemma exists_head?_names {c : Char} (hcs : '/' ∉ cs) (hc : c ≠ '/') (ds : List Char) :
    ∃ more, (names (cs ++ c :: ds)).head? = some (cs ++ c :: more) := by
  have hslash {more : List Char} (hmore : '/' ∉ more) : '/' ∉ cs ++ c :: more := by
    simp [hcs, hmore, hc.symm]
  by_cases hds : '/' ∈ ds
  · obtain ⟨more, rest, hsplit, hmore⟩ := List.eq_append_cons_of_mem hds
    refine ⟨more, ?_⟩
    have hpath : cs ++ c :: ds = (cs ++ c :: more) ++ '/' :: rest := by simp [hsplit]
    rw [hpath, names_append_slash, names_of_not_mem (by simp) (hslash hmore)]
    rfl
  · refine ⟨ds, ?_⟩
    rw [names_of_not_mem (by simp) (hslash hds), List.head?_cons]

/-- A path that has a slash and does not end with one ends with a name. -/
lemma exists_last_name (hmem : '/' ∈ cs) (hlast : cs.getLast? ≠ some '/') :
    ∃ parent name, cs = parent ++ '/' :: name ∧ name ≠ [] ∧ '/' ∉ name := by
  obtain ⟨rname, rparent, hsplit, hslash⟩ := List.eq_append_cons_of_mem (List.mem_reverse.2 hmem)
  have hcs : cs = rparent.reverse ++ '/' :: rname.reverse := by
    rw [← List.reverse_reverse cs, hsplit]
    simp
  refine ⟨rparent.reverse, rname.reverse, hcs, ?_, by simpa using hslash⟩
  intro hnil
  rw [hnil] at hcs
  exact hlast (by simp [hcs])

/-! ### Files in directories -/

lemma contains_root (hfile : file.toList.head? = some '/') : Contains "/" file := by
  refine ⟨hfile, ?_⟩
  have hroot : names "/".toList = [] := by decide
  rw [hroot]
  exact List.nil_prefix

lemma head?_of_isDirectory (hdirectory : IsDirectory directory) :
    directory.toList.head? = some '/' := by
  rcases hdirectory with rfl | ⟨hhead, -⟩
  · rfl
  · exact hhead

/-- A file is contained in the directory with whose whole path its own begins. -/
lemma contains_of_append_slash (hdirectory : IsDirectory directory)
    (hfile : file.toList = directory.toList ++ '/' :: ds) : Contains directory file := by
  refine ⟨?_, ?_⟩
  · rw [hfile, List.head?_append, head?_of_isDirectory hdirectory, Option.some_or]
  · rw [hfile, names_append_slash]
    exact List.prefix_append _ _

lemma contains_self (hdirectory : IsDirectory directory) : Contains directory directory :=
  ⟨head?_of_isDirectory hdirectory, List.prefix_rfl⟩

/-- The last name of the directory is not a name of the file: there it is longer. -/
lemma not_contains_of_runsOn (hdirectory : IsDirectory directory) (h : RunsOn directory file) :
    ¬ Contains directory file := by
  obtain ⟨hroot, c, rest, hc, hfile⟩ := h
  obtain ⟨hhead, hlast⟩ := hdirectory.resolve_left hroot
  obtain ⟨parent, name, hpath, hname, hslash⟩ :=
    exists_last_name (List.mem_of_mem_head? hhead) hlast
  rintro ⟨-, hprefix⟩
  -- Both paths have the names of the parent, so the comparison is about the first name behind them.
  have hfile' : file.toList = parent ++ '/' :: (name ++ c :: rest) := by simp [hfile, hpath]
  rw [hpath, hfile', names_append_slash, names_append_slash, List.prefix_append_right_inj,
    names_of_not_mem hname hslash] at hprefix
  obtain ⟨more, hfirst⟩ := exists_head?_names hslash hc rest
  obtain ⟨others, hothers⟩ := hprefix
  rw [← hothers, List.singleton_append, List.head?_cons, Option.some_inj] at hfirst
  simp at hfirst

end Place

/-! ## Places -/

open Place

variable {directory file rest : String} {cs : List Char}

/-- What follows the path of the directory is shown behind `./`, without the slashes that it begins
with. -/
lemma location_of_append (hfile : file.toList = directory.toList ++ cs) :
    location directory file = "./" ++ String.ofList (cs.dropWhile (· = '/')) := by
  rw [location, List.isPrefixOf?_eq_some_iff_append_eq.2 hfile.symm]

lemma location_of_not_prefix (h : ¬ directory.toList <+: file.toList) :
    location directory file = file := by
  have hnone : List.isPrefixOf? directory.toList file.toList = none := by
    by_contra hsome
    obtain ⟨cs, hcs⟩ := Option.ne_none_iff_exists'.1 hsome
    exact h ⟨cs, List.isPrefixOf?_eq_some_iff_append_eq.1 hcs⟩
  rw [location, hnone]

lemma location_of_inside (h : Inside directory file rest) :
    location directory file = "./" ++ rest := by
  obtain ⟨-, hhead, slashes, -, hfile⟩ := h
  rw [List.append_assoc] at hfile
  have hslashes : ∀ c ∈ List.replicate slashes '/', decide (c = '/') = true := by
    intro c hc
    simpa using List.eq_of_mem_replicate hc
  have hrest : rest.toList.dropWhile (· = '/') = rest.toList := by
    rw [List.dropWhile_eq_self_iff]
    intro hlength hslash
    rw [List.head?_eq_getElem?, List.getElem?_eq_getElem hlength] at hhead
    exact hhead (congrArg some (of_decide_eq_true hslash))
  rw [location_of_append hfile, List.dropWhile_append_of_pos hslashes, hrest, String.ofList_toList]

/-- A file that is shown behind `./` is not shown by its own absolute path. -/
lemma location_ne_of_append (hhead : directory.toList.head? = some '/')
    (hfile : file.toList = directory.toList ++ cs) : location directory file ≠ file := by
  intro h
  have hdot : (location directory file).toList.head? = some '.' := by
    rw [location_of_append hfile, String.toList_append]
    rfl
  rw [h, hfile, List.head?_append, hhead, Option.some_or] at hdot
  exact absurd hdot (by decide)

/-- A file is shown by its own path exactly if this does not begin with the directory's. -/
lemma location_eq_self_iff (hdirectory : IsDirectory directory) :
    location directory file = file ↔ ¬ directory.toList <+: file.toList := by
  constructor
  · rintro h ⟨cs, hfile⟩
    exact location_ne_of_append (head?_of_isDirectory hdirectory) hfile.symm h
  · exact location_of_not_prefix

/-- A file with whose path that of the directory begins is in the directory or runs on. -/
lemma contains_or_runsOn (hdirectory : IsDirectory directory)
    (h : directory.toList <+: file.toList) : Contains directory file ∨ RunsOn directory file := by
  obtain ⟨cs, hfile⟩ := h
  by_cases hroot : directory = "/"
  · subst hroot
    exact .inl (contains_root (by rw [← hfile]; rfl))
  · rcases cs with _ | ⟨c, cs⟩
    · rw [List.append_nil, String.toList_inj] at hfile
      exact .inl (hfile ▸ contains_self hdirectory)
    · by_cases hc : c = '/'
      · exact .inl (contains_of_append_slash hdirectory (hc ▸ hfile.symm))
      · exact .inr ⟨hroot, c, cs, hc, hfile.symm⟩

namespace Event

variable {e : Event} {time place : String}

@[simp]
lemma lineAt_inj {other : String} : e.lineAt time place = e.lineAt time other ↔ place = other := by
  simp [lineAt, Colour.paint, String.append_left_inj, String.append_right_inj, String.append_assoc]

lemma line_of_file (hfile : e.file = some file) :
    e.line time directory = e.lineAt time (location directory file) := by
  rw [line, hfile, Option.getD_some]

/-- In this directory, the line of the event shows a file inside the directory relative to it, and
a file that the directory does not contain as it is. -/
structure ShowsPlace (e : Event) (time directory file : String) : Prop where
  inside : ∀ rest, Inside directory file rest →
    e.line time directory = e.lineAt time ("./" ++ rest)
  outside : ¬ Contains directory file → e.line time directory = e.lineAt time file

/-- The line shows the right place, unless the path of the file begins with that of the directory
and goes on in the middle of a name. -/
theorem showsPlace_iff (hdirectory : IsDirectory directory) (hfile : e.file = some file) :
    e.ShowsPlace time directory file ↔ ¬ RunsOn directory file := by
  constructor
  · rintro ⟨-, houtside⟩ hruns
    have hline := houtside (not_contains_of_runsOn hdirectory hruns)
    rw [line_of_file hfile, lineAt_inj] at hline
    obtain ⟨-, c, cs, -, hpath⟩ := hruns
    exact (location_eq_self_iff hdirectory).1 hline ⟨c :: cs, hpath.symm⟩
  · intro hruns
    refine ⟨?_, ?_⟩
    · intro rest hinside
      rw [line_of_file hfile, location_of_inside hinside]
    · intro hcontains
      have hprefix : ¬ directory.toList <+: file.toList := by
        intro hprefix
        rcases contains_or_runsOn hdirectory hprefix with h | h
        · exact hcontains h
        · exact hruns h
      rw [line_of_file hfile, (location_eq_self_iff hdirectory).2 hprefix]

/-- A greeting from a file. -/
def greeting (file : String) : Event where
  level := .info
  target := "tiller"
  file := some file
  fields := [("message", .text "hi")]

theorem showsPlace_iff_nestedFile :
    IsDirectory "/usr" ∧ (greeting "/usr//bin/x.rs").file = some "/usr//bin/x.rs" ∧
      ((greeting "/usr//bin/x.rs").ShowsPlace "noon" "/usr" "/usr//bin/x.rs" ↔
        ¬ RunsOn "/usr" "/usr//bin/x.rs") := by
  have hdirectory : IsDirectory "/usr" := .inr (by decide)
  exact ⟨hdirectory, rfl, showsPlace_iff hdirectory rfl⟩

/-- A file next to a directory, whose name goes on with the directory's, is shown as if it were
inside it. -/
theorem neighbour_shown_inside :
    IsDirectory "/usr" ∧ ¬ Contains "/usr" "/usrlocal/x.rs" ∧
      (greeting "/usrlocal/x.rs").line "noon" "/usr" =
        (greeting "/usrlocal/x.rs").lineAt "noon" "./local/x.rs" ∧
      ¬ (greeting "/usrlocal/x.rs").ShowsPlace "noon" "/usr" "/usrlocal/x.rs" := by
  have hdirectory : IsDirectory "/usr" := .inr (by decide)
  have hruns : RunsOn "/usr" "/usrlocal/x.rs" :=
    ⟨by decide, 'l', "ocal/x.rs".toList, by decide, by decide⟩
  have hcontains := not_contains_of_runsOn hdirectory hruns
  have hlocation : location "/usr" "/usrlocal/x.rs" = "./local/x.rs" := by decide
  refine ⟨hdirectory, hcontains, ?_, ?_⟩
  · rw [line_of_file rfl, hlocation]
  · intro hshows
    have hline := hshows.outside hcontains
    rw [line_of_file rfl, lineAt_inj, hlocation] at hline
    exact absurd hline (by decide)

end Event

end ChainHead.Log
