import BindingGraph.Proofs.Files.Extensions
import BindingGraph.Proofs.Text.Lines
import BindingGraph.Proofs.Workspace.Loading
import Mathlib

/-!
# Directories of graph files

A directory is loaded as the graph files in it one after the other, sorted by name, or fails as the
first of them that fails (`loadDirectory_by_name`). In whatever order it is listed, only the files
with the extension of graph files count (`LeadsTo.mem_graphFileNames_iff`), and of those only the
ones that the path of the directory reaches: where it is so long that the path of a file in it is
none any more, this file is passed over (`loadDirectory_passes_over`).
-/

namespace BindingGraph.Workspace

variable {files other : FileTree} {path directory : FilePath} {place otherPlace : Location}
  {name stem : String}

/-! ## One file -/

/-- A graph file is loaded as a graph of its name without the extension. -/
theorem graphName_child (hname : IsFileName name) (hstem : stem ≠ "")
    (h : name = stem ++ ".jsonl") :
    graphName (directory.child name) = stem := by
  obtain ⟨front, hchild, -⟩ := directory.exists_child_eq hname
  have hlast : (directory.child name).parts.getLast? = some name := by
    rw [hchild, List.getLast?_concat]
  have hsplit : FilePath.splitName name = (stem, some "jsonl") :=
    FilePath.splitName_eq_some_iff.mpr ⟨hstem, by decide, by rw [h, String.append_assoc]; rfl⟩
  rw [graphName, FilePath.stem?_of_getLast? hlast hname.not_trivial hname.ne_back, hsplit]
  rfl

/-- What a graph file is loaded as, by what there is at the end of its path. -/
def fileOutcome (path : FilePath) : Except FileError Entry → Except Error LoadedGraphs
  | .ok (.file bytes) =>
    match Text.linesOfBytes bytes with
    | .ok lines => .ok (.single (graphName path) (LoadedGraph.ofLines lines))
    | .error fault => .error (.graphFile path (.badLine fault))
  | .ok .directory => .error (.graphFile path .isADirectory)
  | .error error => .error (.graphFile path error)

theorem loadSingle_run_of_error {error : FileError}
    (h : (FileAction.readLines path).run files = (.error error, files)) :
    (loadSingle path).run files = (.error (.graphFile path error), files) := by
  rw [loadSingle, run_bind_of_error (loadFile_run_of_error h)]

/-- Loading looks at nothing but the end of the path and changes nothing. -/
theorem loadSingle_run_eq (path : FilePath) (files : FileTree) :
    (loadSingle path).run files = (fileOutcome path (files.entryAt path), files) := by
  rcases hentry : files.entryAt path with error | _ | bytes
  · apply loadSingle_run_of_error
    rw [FileAction.readLines, FileAction.read, run_bind, FileAction.run_ask_bind, hentry]
  · apply loadSingle_run_of_error
    rw [FileAction.readLines, FileAction.read, run_bind, FileAction.run_ask_bind, hentry]
    rfl
  · rw [fileOutcome]
    cases hlines : Text.linesOfBytes bytes with
    | ok lines => exact loadSingle_run hentry hlines
    | error fault => exact loadSingle_run_of_error (FileAction.readLines_run_of_fault hentry hlines)

/-- What a name in a directory is loaded as. -/
def loadedAs (files : FileTree) (directory : FilePath) (name : String) :
    Except Error LoadedGraphs :=
  ((loadSingle (directory.child name)).run files).1

theorem loadSingle_child_run (files : FileTree) (directory : FilePath) (name : String) :
    (loadSingle (directory.child name)).run files = (loadedAs files directory name, files) := by
  rw [loadedAs, loadSingle_run_eq]

/-! ## Files one after the other -/

section Names

variable {names before after : List String} {parts : List LoadedGraphs} {error : Error}

theorem loadFiles_cons_run (files : FileTree) (directory : FilePath) (name : String)
    (names : List String) :
    (loadFiles ((name :: names).map directory.child)).run files =
      match loadedAs files directory name with
      | .ok part =>
        (((loadFiles (names.map directory.child)).run files).1.map part.append,
          ((loadFiles (names.map directory.child)).run files).2)
      | .error error => (.error error, files) := by
  rw [List.map_cons, loadFiles, run_bind, loadSingle_child_run]
  cases loadedAs files directory name with
  | error error => rfl
  | ok part =>
    dsimp only
    rw [run_bind]
    rcases (loadFiles (names.map directory.child)).run files with ⟨_ | _, _⟩ <;> rfl

/-- Everything is loaded if each file is. -/
theorem loadFiles_run_of_ok (h : names.map (loadedAs files directory) = parts.map .ok) :
    (loadFiles (names.map directory.child)).run files =
      (.ok ⟨parts.flatMap (·.graphs), parts.flatMap (·.warnings)⟩, files) := by
  induction names generalizing parts with
  | nil =>
    obtain rfl := List.map_eq_nil_iff.mp h.symm
    rfl
  | cons name names ih =>
    obtain ⟨part, parts, rfl⟩ := List.exists_cons_of_ne_nil (show parts ≠ [] by rintro rfl; cases h)
    rw [List.map_cons, List.map_cons, List.cons.injEq] at h
    rw [loadFiles_cons_run, h.1, ih h.2]
    rfl

/-- What is loaded before the first file that fails is lost. -/
theorem loadFiles_run_of_error
    (hbefore : ∀ earlier ∈ before, ∃ part, loadedAs files directory earlier = .ok part)
    (h : loadedAs files directory name = .error error) :
    (loadFiles ((before ++ name :: after).map directory.child)).run files =
      (.error error, files) := by
  induction before with
  | nil => rw [List.nil_append, loadFiles_cons_run, h]
  | cons first before ih =>
    obtain ⟨part, hpart⟩ := hbefore first List.mem_cons_self
    have hrest := ih fun earlier hearlier => hbefore earlier (List.mem_cons_of_mem _ hearlier)
    rw [List.cons_append, loadFiles_cons_run, hpart, hrest]
    rfl

theorem loadFiles_run_congr
    (h : ∀ name ∈ names, loadedAs files directory name = loadedAs other directory name) :
    ((loadFiles (names.map directory.child)).run files).1 =
      ((loadFiles (names.map directory.child)).run other).1 := by
  induction names with
  | nil => rfl
  | cons name names ih =>
    have hrest := ih fun later hlater => h later (List.mem_cons_of_mem _ hlater)
    rw [loadFiles_cons_run, loadFiles_cons_run, h name List.mem_cons_self]
    cases loadedAs other directory name with
    | error error => rfl
    | ok part => exact congrArg (·.map part.append) hrest

end Names

/-! ## The graph files of a directory -/

/-- A path leads to a directory, in a tree that holds nothing twice. -/
structure LeadsTo (files : FileTree) (directory : FilePath) (place : Location) : Prop where
  tree : files.IsTree
  distinct : (files.entries.map Prod.fst).Nodup
  located : files.locate directory = .ok place
  isDirectory : files.get? place = some .directory

/-- A name that ends as those of graph files do, behind something else. -/
def HasGraphExtension (name : String) : Prop := ∃ stem, stem ≠ "" ∧ name = stem ++ ".jsonl"

/-- A file in a directory that is loaded with it; its path is not too long for it to be reached. -/
structure IsGraphFile (files : FileTree) (directory : FilePath) (place : Location) (name : String) :
    Prop where
  extension : HasGraphExtension name
  isFile : ∃ bytes, files.get? (place ++ [name]) = some (.file bytes)
  fits : (directory.child name).text.utf8ByteSize ≤ FileTree.maxPathBytes

theorem isGraphName_iff : isGraphName name = true ↔ HasGraphExtension name := by
  have hdot (stem : String) : stem ++ "." ++ graphExtension = stem ++ ".jsonl" := by
    rw [String.append_assoc]
    rfl
  rw [isGraphName, decide_eq_true_eq]
  constructor
  · intro h
    have hsplit : FilePath.splitName name = ((FilePath.splitName name).1, some graphExtension) :=
      Prod.ext rfl h
    obtain ⟨hstem, -, hname⟩ := FilePath.splitName_eq_some_iff.mp hsplit
    exact ⟨_, hstem, hname.trans (hdot _)⟩
  · rintro ⟨stem, hstem, rfl⟩
    have hnone : '.' ∉ graphExtension.toList := by decide
    rw [← hdot, FilePath.splitName_append hstem hnone]

namespace LeadsTo

theorem isFile_child_iff (h : LeadsTo files directory place) (hname : IsFileName name) :
    files.isFile (directory.child name) = true ↔
      (directory.child name).text.utf8ByteSize ≤ FileTree.maxPathBytes ∧
        ∃ bytes, files.get? (place ++ [name]) = some (.file bytes) := by
  rw [FileTree.isFile, FileTree.entryAt_child_eq h.located h.isDirectory hname]
  split_ifs with hlong
  · exact iff_of_false (by simp) fun hfits => absurd hlong (Nat.not_lt.mpr hfits.1)
  · rw [and_iff_right (Nat.not_lt.mp hlong)]
    rcases files.get? (place ++ [name]) with _ | _ | bytes <;> simp

/-- The names that are picked from the listing of a directory. -/
theorem mem_graphFileNames_iff (h : LeadsTo files directory place) :
    name ∈ graphFileNames files directory (files.names place) ↔
      IsGraphFile files directory place name := by
  rw [graphFileNames, List.mem_mergeSort, List.mem_filter, FileTree.mem_names_iff, Bool.and_eq_true,
    isGraphName_iff]
  constructor
  · rintro ⟨⟨entry, hentry⟩, hextension, hfile⟩
    have hname := h.tree.isFileName_of_mem hentry name (by simp)
    obtain ⟨hfits, hbytes⟩ := (h.isFile_child_iff hname).mp hfile
    exact ⟨hextension, hbytes, hfits⟩
  · rintro ⟨hextension, ⟨bytes, hbytes⟩, hfits⟩
    have hname := h.tree.isFileName_of_mem hbytes name (by simp)
    exact ⟨⟨_, hbytes⟩, hextension, (h.isFile_child_iff hname).mpr ⟨hfits, bytes, hbytes⟩⟩

theorem pairwise_graphFileNames (h : LeadsTo files directory place) :
    (graphFileNames files directory (files.names place)).Pairwise (· < ·) := by
  have hsorted : (graphFileNames files directory (files.names place)).Pairwise
      fun a b => decide (a ≤ b) = true :=
    List.pairwise_mergeSort (fun a b c => by simpa using String.le_trans)
      (fun a b => by simpa using String.le_total a b) _
  have hnodup : (graphFileNames files directory (files.names place)).Nodup :=
    (List.mergeSort_perm _ _).nodup_iff.mpr ((FileTree.nodup_names h.distinct place).filter _)
  refine hsorted.imp₂ ?_ hnodup
  intro a b hle hne
  apply String.not_le.mp
  intro hge
  exact hne (String.le_antisymm (of_decide_eq_true hle) hge)

theorem entryAt_child (h : LeadsTo files directory place) {bytes : List UInt8}
    (hfits : (directory.child name).text.utf8ByteSize ≤ FileTree.maxPathBytes)
    (hbytes : files.get? (place ++ [name]) = some (.file bytes)) :
    files.entryAt (directory.child name) = .ok (.file bytes) := by
  have hname := h.tree.isFileName_of_mem hbytes name (by simp)
  rw [FileTree.entryAt_child_eq h.located h.isDirectory hname, if_neg (Nat.not_lt.mpr hfits),
    hbytes]

theorem loadedAs_eq (h : LeadsTo files directory place) {bytes : List UInt8}
    (hfits : (directory.child name).text.utf8ByteSize ≤ FileTree.maxPathBytes)
    (hbytes : files.get? (place ++ [name]) = some (.file bytes)) :
    loadedAs files directory name = fileOutcome (directory.child name) (.ok (.file bytes)) := by
  rw [loadedAs, loadSingle_run_eq, h.entryAt_child hfits hbytes]

/-- Nothing but the graph files counts. -/
theorem loadDirectory_run_congr (h : LeadsTo files directory place)
    (h' : LeadsTo other directory otherPlace)
    (hsame : ∀ name bytes, HasGraphExtension name →
      (files.get? (place ++ [name]) = some (.file bytes) ↔
        other.get? (otherPlace ++ [name]) = some (.file bytes))) :
    ((loadDirectory directory).run files).1 = ((loadDirectory directory).run other).1 := by
  have hnames : graphFileNames files directory (files.names place) =
      graphFileNames other directory (other.names otherPlace) := by
    refine h.pairwise_graphFileNames.eq_of_mem_iff h'.pairwise_graphFileNames ?_
    intro name
    rw [h.mem_graphFileNames_iff, h'.mem_graphFileNames_iff]
    constructor
    · rintro ⟨hextension, ⟨bytes, hbytes⟩, hfits⟩
      exact ⟨hextension, ⟨bytes, (hsame name bytes hextension).mp hbytes⟩, hfits⟩
    · rintro ⟨hextension, ⟨bytes, hbytes⟩, hfits⟩
      exact ⟨hextension, ⟨bytes, (hsame name bytes hextension).mpr hbytes⟩, hfits⟩
  rw [loadDirectory_run h.located h.isDirectory, loadDirectory_run h'.located h'.isDirectory,
    ← hnames]
  split_ifs
  · rfl
  · apply loadFiles_run_congr
    intro name hname
    obtain ⟨hextension, ⟨bytes, hbytes⟩, hfits⟩ := h.mem_graphFileNames_iff.mp hname
    rw [h.loadedAs_eq hfits hbytes, h'.loadedAs_eq hfits ((hsame name bytes hextension).mp hbytes)]

end LeadsTo

/-- **File by file.** A directory has a sorted list of graph files. It is loaded as what these
are loaded as, put together in this order, or fails as the first of them that fails; without any
there is nothing to load. Whatever else is in the directory, and the order in which it is listed,
has no influence. -/
theorem loadDirectory_by_name (files : FileTree) (directory : FilePath) (place : Location)
    (h : LeadsTo files directory place) :
    (∃ names : List String, names.Pairwise (· < ·) ∧
      (∀ name, name ∈ names ↔ IsGraphFile files directory place name) ∧
      (names = [] → (loadDirectory directory).run files = (.error (.noGraphs directory), files)) ∧
      (∀ before name after error, names = before ++ name :: after →
        (∀ earlier ∈ before, ∃ part, loadedAs files directory earlier = .ok part) →
        loadedAs files directory name = .error error →
        (loadDirectory directory).run files = (.error error, files)) ∧
      ∀ parts :
        List LoadedGraphs, names ≠ [] → names.map (loadedAs files directory) = parts.map .ok →
        (loadDirectory directory).run files =
          (.ok ⟨parts.flatMap (·.graphs), parts.flatMap (·.warnings)⟩, files)) ∧
    ∀ other otherPlace, LeadsTo other directory otherPlace →
      (∀ name bytes, HasGraphExtension name →
        (files.get? (place ++ [name]) = some (.file bytes) ↔
          other.get? (otherPlace ++ [name]) = some (.file bytes))) →
      ((loadDirectory directory).run files).1 = ((loadDirectory directory).run other).1 := by
  refine ⟨⟨graphFileNames files directory (files.names place), h.pairwise_graphFileNames,
    fun _ => h.mem_graphFileNames_iff, ?_, ?_, ?_⟩, fun _ _ => h.loadDirectory_run_congr⟩
  · intro hnone
    rw [loadDirectory_run h.located h.isDirectory, if_pos hnone]
  · intro before name after error hnames hbefore herror
    rw [loadDirectory_run h.located h.isDirectory, hnames, if_neg (by simp)]
    exact loadFiles_run_of_error hbefore herror
  · intro parts hsome hparts
    rw [loadDirectory_run h.located h.isDirectory, if_neg hsome]
    exact loadFiles_run_of_ok hparts

/-! ## A mixed directory -/

/-- A line that declares a node, and one that is no record. -/
def declared : List UInt8 := Text.encodeUtf8 "[\"a\"]\nnothing\n"

/-- A directory that lists two graph files in the wrong order, among what is none, and one in which
the second of three files is not text. -/
def mixed : FileTree :=
  ⟨[(["g", "b.v2.jsonl"], .file declared), (["g", ".jsonl"], .file [0xC3]), (["g"], .directory),
    (["g", "c.jsonl.txt"], .file declared), (["g", "a.jsonl"], .file declared),
    (["g", "d.jsonl"], .directory), (["h", "c.jsonl"], .file [0xFF]),
    (["h", "b.jsonl"], .file [0xC3]), (["h", "a.jsonl"], .file declared), (["h"], .directory)], []⟩

/-- The first two graph files alone, elsewhere. -/
def tidy : FileTree :=
  ⟨[(["w"], .directory), (["w", "g"], .directory), (["w", "g", "a.jsonl"], .file declared),
    (["w", "g", "b.v2.jsonl"], .file declared)], ["w"]⟩

theorem ofText_slash : FilePath.ofText "g/" = ⟨["g", ""]⟩ := by
  simp [FilePath.ofText, Text.splitOn, Text.splitChars]

theorem locate_slash (files : FileTree) :
    files.locate (.ofText "g/") = files.follow files.current ["g", ""] := by
  rw [FileTree.locate,
    FileTree.origin_ofText (by decide) (by rw [ofText_slash]; decide) (by decide), ofText_slash]
  rfl

theorem leadsTo_mixed : LeadsTo mixed (.ofText "g/") ["g"] :=
  ⟨by decide, by decide, (locate_slash mixed).trans rfl, by decide⟩

theorem leadsTo_mixed_failing : LeadsTo mixed (.ofText "h") ["h"] :=
  ⟨by decide, by decide, (FileTree.locate_fileName (by decide)).trans rfl, by decide⟩

theorem leadsTo_tidy : LeadsTo tidy (.ofText "g/") ["w", "g"] :=
  ⟨by decide, by decide, (locate_slash tidy).trans rfl, by decide⟩

/-- Of a path that is no longer than a name, every name in the directory can be reached. -/
theorem fits_of_short {text : String} (htext : text.utf8ByteSize ≤ FileTree.maxNameBytes)
    (hname : IsFileName name) :
    ((FilePath.ofText text).child name).text.utf8ByteSize ≤ FileTree.maxPathBytes := by
  have hle := (FilePath.ofText text).utf8ByteSize_text_child_le hname
  have hshort := hname.short
  rw [FilePath.text_ofText] at hle
  rw [FileTree.maxNameBytes] at htext hshort
  rw [FileTree.maxPathBytes]
  omega

theorem mem_of_get?_mixed {bytes : List UInt8} (h : HasGraphExtension name)
    (hfile : mixed.get? (["g"] ++ [name]) = some (.file bytes)) :
    name ∈ ["a.jsonl", "b.v2.jsonl"] := by
  rw [← isGraphName_iff] at h
  have hname : name ∈ ["b.v2.jsonl", ".jsonl", "c.jsonl.txt", "a.jsonl", "d.jsonl"] :=
    FileTree.mem_names_iff.mpr ⟨_, hfile⟩
  simp only [List.mem_cons, List.not_mem_nil, or_false] at hname
  rcases hname with rfl | rfl | rfl | rfl | rfl
  · exact List.mem_cons_of_mem _ List.mem_cons_self
  · exact absurd h (by decide)
  · exact absurd h (by decide)
  · exact List.mem_cons_self
  · cases hfile

theorem isGraphFile_mixed_iff :
    name ∈ ["a.jsonl", "b.v2.jsonl"] ↔ IsGraphFile mixed (.ofText "g/") ["g"] name := by
  constructor
  · intro hname
    rcases List.mem_pair.mp hname with rfl | rfl
    · exact ⟨⟨"a", by decide, rfl⟩, ⟨_, rfl⟩, fits_of_short (by decide) (by decide)⟩
    · exact ⟨⟨"b.v2", by decide, rfl⟩, ⟨_, rfl⟩, fits_of_short (by decide) (by decide)⟩
  · rintro ⟨hextension, ⟨bytes, hbytes⟩, -⟩
    exact mem_of_get?_mixed hextension hbytes

theorem isGraphFile_mixed_failing_iff :
    name ∈ ["a.jsonl", "b.jsonl", "c.jsonl"] ↔ IsGraphFile mixed (.ofText "h") ["h"] name := by
  constructor
  · intro hname
    simp only [List.mem_cons, List.not_mem_nil, or_false] at hname
    rcases hname with rfl | rfl | rfl
    · exact ⟨⟨"a", by decide, rfl⟩, ⟨_, rfl⟩, fits_of_short (by decide) (by decide)⟩
    · exact ⟨⟨"b", by decide, rfl⟩, ⟨_, rfl⟩, fits_of_short (by decide) (by decide)⟩
    · exact ⟨⟨"c", by decide, rfl⟩, ⟨_, rfl⟩, fits_of_short (by decide) (by decide)⟩
  · rintro ⟨-, ⟨bytes, hbytes⟩, -⟩
    have hname : name ∈ ["c.jsonl", "b.jsonl", "a.jsonl"] := FileTree.mem_names_iff.mpr ⟨_, hbytes⟩
    simpa [or_comm, or_left_comm] using hname

/-- Both trees have the same graph files there. -/
theorem get?_mixed_iff_get?_tidy {bytes : List UInt8} (h : HasGraphExtension name) :
    mixed.get? (["g"] ++ [name]) = some (.file bytes) ↔
      tidy.get? (["w", "g"] ++ [name]) = some (.file bytes) := by
  constructor
  · intro hfile
    rcases List.mem_pair.mp (mem_of_get?_mixed h hfile) with rfl | rfl
    · exact hfile
    · exact hfile
  · intro hfile
    have hname : name ∈ ["a.jsonl", "b.v2.jsonl"] := FileTree.mem_names_iff.mpr ⟨_, hfile⟩
    rcases List.mem_pair.mp hname with rfl | rfl
    · exact hfile
    · exact hfile

theorem isLine_of_mem_declared : ∀ line ∈ ["[\"a\"]", "nothing"], Text.IsLine line := by
  intro line hline
  rcases List.mem_pair.mp hline with rfl | rfl
  · exact ⟨by decide, by decide⟩
  · exact ⟨by decide, by decide⟩

theorem fileOutcome_declared (path : FilePath) :
    fileOutcome path (.ok (.file declared)) =
      .ok (.single (graphName path) (LoadedGraph.ofLines ["[\"a\"]", "nothing"])) := by
  have htext : "[\"a\"]\nnothing\n" = String.join (["[\"a\"]", "nothing"].map (· ++ "\n")) := by
    decide
  have hlines : Text.linesOfBytes declared = .ok ["[\"a\"]", "nothing"] := by
    rw [declared, htext, Text.linesOfBytes_encodeLines isLine_of_mem_declared]
  rw [fileOutcome, hlines]

theorem loadDirectory_by_name_mixed :
    let part (name : String) :=
      LoadedGraphs.single name (LoadedGraph.ofLines ["[\"a\"]", "nothing"])
    (loadDirectory (.ofText "g/")).run mixed = (.ok ((part "a").append (part "b.v2")), mixed) ∧
      ((loadDirectory (.ofText "g/")).run mixed).1 = ((loadDirectory (.ofText "g/")).run tidy).1 ∧
      (loadDirectory (.ofText "h")).run mixed =
        (.error (.graphFile (.ofText "h/b.jsonl") (.badLine ⟨0, none⟩)), mixed) := by
  intro part
  obtain ⟨⟨names, hsorted, hmem, -, -, hloaded⟩, hsame⟩ :=
    loadDirectory_by_name mixed (.ofText "g/") ["g"] leadsTo_mixed
  obtain ⟨⟨failing, hsortedFailing, hmemFailing, -, hfails, -⟩, -⟩ :=
    loadDirectory_by_name mixed (.ofText "h") ["h"] leadsTo_mixed_failing
  have hnames : names = ["a.jsonl", "b.v2.jsonl"] :=
    hsorted.eq_of_mem_iff (by decide) fun _ => (hmem _).trans isGraphFile_mixed_iff.symm
  have hfailing : failing = ["a.jsonl", "b.jsonl", "c.jsonl"] :=
    hsortedFailing.eq_of_mem_iff (by decide) fun _ =>
      (hmemFailing _).trans isGraphFile_mixed_failing_iff.symm
  refine ⟨?_, hsame tidy ["w", "g"] leadsTo_tidy fun _ _ => get?_mixed_iff_get?_tidy, ?_⟩
  · have hfirst : loadedAs mixed (.ofText "g/") "a.jsonl" = .ok (part "a") := by
      have hgraph : graphName ((FilePath.ofText "g/").child "a.jsonl") = "a" :=
        graphName_child (by decide) (by decide) (by decide)
      rw [leadsTo_mixed.loadedAs_eq (fits_of_short (by decide) (by decide)) rfl,
        fileOutcome_declared, hgraph]
    have hsecond : loadedAs mixed (.ofText "g/") "b.v2.jsonl" = .ok (part "b.v2") := by
      have hgraph : graphName ((FilePath.ofText "g/").child "b.v2.jsonl") = "b.v2" :=
        graphName_child (by decide) (by decide) (by decide)
      rw [leadsTo_mixed.loadedAs_eq (fits_of_short (by decide) (by decide)) rfl,
        fileOutcome_declared, hgraph]
    have hparts : names.map (loadedAs mixed (.ofText "g/")) = [part "a", part "b.v2"].map .ok := by
      rw [hnames, List.map_cons, List.map_cons, List.map_nil, hfirst, hsecond]
      rfl
    rw [hloaded _ (by rw [hnames]; simp) hparts]
    simp [LoadedGraphs.append]
  · have hfirst : ∃ first, loadedAs mixed (.ofText "h") "a.jsonl" = .ok first := by
      rw [leadsTo_mixed_failing.loadedAs_eq (fits_of_short (by decide) (by decide)) rfl,
        fileOutcome_declared]
      exact ⟨_, rfl⟩
    have hsecond : loadedAs mixed (.ofText "h") "b.jsonl" =
        .error (.graphFile (.ofText "h/b.jsonl") (.badLine ⟨0, none⟩)) := by
      rw [leadsTo_mixed_failing.loadedAs_eq (fits_of_short (by decide) (by decide)) rfl]
      cbv
    exact hfails ["a.jsonl"] "b.jsonl" ["c.jsonl"] _ hfailing (by simpa using hfirst) hsecond

/-! ## A file beyond the longest path -/

/-- A directory with two graph files, whose names are not of the same length. -/
def reachable : FileTree :=
  ⟨[(["g"], .directory), (["g", "long.jsonl"], .file declared), (["g", "a.jsonl"], .file declared)],
    []⟩

/-- A long way to the directory, which stays there for many steps. -/
def roundabout (count : Nat) : FilePath := ⟨"" :: "g" :: List.replicate count "."⟩

variable {count : Nat}

theorem follow_replicate_dot (h : files.get? place = some .directory) (count : Nat) :
    files.follow place (List.replicate count ".") = .ok place := by
  induction count with
  | zero => rfl
  | succ count ih =>
    rw [List.replicate_succ, FileTree.follow, h]
    exact ih

theorem utf8ByteSize_roundabout (count : Nat) :
    (roundabout count).text.utf8ByteSize = 2 + 2 * count := by
  have hname : "g".utf8ByteSize = 1 := rfl
  have hdot : ".".utf8ByteSize = 1 := rfl
  rw [FilePath.text, roundabout, utf8ByteSize_intercalate, pathBytes, pathBytes_replicate,
    String.utf8ByteSize_empty, hname, hdot]
  omega

theorem locate_roundabout (hfits : 2 + 2 * count ≤ FileTree.maxPathBytes)
    (hplace : files.get? ["g"] = some .directory) :
    files.locate (roundabout count) = .ok ["g"] := by
  have hnul : '\x00' ∉ (roundabout count).text.toList := by
    intro hmem
    rcases mem_intercalate hmem with hslash | ⟨part, hpart, hch⟩
    · exact absurd hslash (by decide)
    · simp only [List.mem_cons, List.mem_replicate] at hpart
      rcases hpart with rfl | rfl | ⟨-, rfl⟩
      · cases hch
      · simp at hch
      · simp at hch
  have horigin : files.origin (roundabout count) = .ok ([], (roundabout count).parts) := by
    refine FileTree.origin_eq_ok_iff.mpr ⟨?_, by simp [roundabout], ?_, rfl, rfl⟩
    · rw [String.contains_char_eq, decide_eq_true_eq]
      exact hnul
    · rw [utf8ByteSize_roundabout]
      omega
  refine bind_eq_ok_iff.mpr ⟨_, horigin, ?_⟩
  have hgoes : files.follow [] ["", "g"] = .ok ["g"] := by
    show (if (files.get? ["g"]).isSome = true then _ else _) = _
    rw [hplace]
    rfl
  have happend := FileTree.follow_append files [] ["", "g"] (List.replicate count ".")
  rw [hgoes] at happend
  exact happend.trans (follow_replicate_dot hplace count)

theorem child_roundabout (hname : IsFileName name) :
    (roundabout count).child name = ⟨(roundabout count).parts ++ [name]⟩ := by
  rw [FilePath.child_eq hname, if_neg]
  rw [roundabout, List.getLast?_cons_cons, List.getLast?_cons, List.getLast?_replicate]
  split_ifs <;> simp

theorem pathBytes_singleton (name : String) : pathBytes [name] = name.utf8ByteSize + 1 := by
  rw [pathBytes, pathBytes, Nat.add_zero]

theorem utf8ByteSize_child_roundabout (hname : IsFileName name) :
    ((roundabout count).child name).text.utf8ByteSize = 3 + 2 * count + name.utf8ByteSize := by
  have htext := utf8ByteSize_roundabout count
  rw [FilePath.text, roundabout, utf8ByteSize_intercalate] at htext
  rw [child_roundabout hname, FilePath.text, roundabout, List.cons_append, utf8ByteSize_intercalate,
    pathBytes_append, pathBytes_singleton]
  omega

theorem leadsTo_roundabout (hfits : 2 + 2 * count ≤ FileTree.maxPathBytes) :
    LeadsTo reachable (roundabout count) ["g"] :=
  ⟨by decide, by decide, locate_roundabout hfits rfl, rfl⟩

/-- A file that the path of the directory does not reach is not missed: the other one is loaded. -/
theorem loadDirectory_passes_over :
    let path := roundabout 2042
    LeadsTo reachable path ["g"] ∧ HasGraphExtension "long.jsonl" ∧
      reachable.get? (["g"] ++ ["long.jsonl"]) = some (.file declared) ∧
      (loadSingle (path.child "long.jsonl")).run reachable =
        (.error (.graphFile (path.child "long.jsonl") .nameTooLong), reachable) ∧
      (loadDirectory path).run reachable =
        (.ok (.single "a" (LoadedGraph.ofLines ["[\"a\"]", "nothing"])), reachable) := by
  intro path
  have hleads : LeadsTo reachable path ["g"] := leadsTo_roundabout (by decide)
  have hshort : IsFileName "a.jsonl" := by decide
  have hname : IsFileName "long.jsonl" := by decide
  have hfits : (path.child "a.jsonl").text.utf8ByteSize ≤ FileTree.maxPathBytes := by
    rw [utf8ByteSize_child_roundabout hshort]
    decide
  have hlong : FileTree.maxPathBytes < (path.child "long.jsonl").text.utf8ByteSize := by
    rw [utf8ByteSize_child_roundabout hname]
    decide
  refine ⟨hleads, ⟨"long", by decide, by decide⟩, rfl, ?_, ?_⟩
  · rw [loadSingle_run_eq, FileTree.entryAt_child_eq hleads.located rfl hname, if_pos hlong]
    rfl
  · have hnames : graphFileNames reachable path (reachable.names ["g"]) = ["a.jsonl"] := by
      refine hleads.pairwise_graphFileNames.eq_of_mem_iff (by simp) ?_
      intro name
      rw [hleads.mem_graphFileNames_iff, List.mem_singleton]
      constructor
      · rintro ⟨-, ⟨bytes, hfile⟩, hreached⟩
        have hlisted : name ∈ ["long.jsonl", "a.jsonl"] := FileTree.mem_names_iff.mpr ⟨_, hfile⟩
        simp only [List.mem_cons, List.not_mem_nil, or_false] at hlisted
        rcases hlisted with rfl | rfl
        · exact absurd hlong (Nat.not_lt.mpr hreached)
        · rfl
      · rintro rfl
        exact ⟨⟨"a", by decide, by decide⟩, ⟨_, rfl⟩, hfits⟩
    have hgraph : graphName (path.child "a.jsonl") = "a" := by
      have hlast : (path.child "a.jsonl").parts.getLast? = some "a.jsonl" := by
        rw [child_roundabout hshort, List.getLast?_concat]
      rw [graphName, FilePath.stem?_of_getLast? hlast hshort.not_trivial hshort.ne_back]
      decide
    have hpart : loadedAs reachable path "a.jsonl" =
        .ok (.single "a" (LoadedGraph.ofLines ["[\"a\"]", "nothing"])) := by
      rw [hleads.loadedAs_eq hfits rfl, fileOutcome_declared, hgraph]
    have hparts : ["a.jsonl"].map (loadedAs reachable path) = [_].map .ok := congrArg ([·]) hpart
    rw [loadDirectory_run hleads.located hleads.isDirectory, hnames, if_neg (List.cons_ne_nil _ _),
      loadFiles_run_of_ok hparts]
    simp

end BindingGraph.Workspace
