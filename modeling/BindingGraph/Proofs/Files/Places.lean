import BindingGraph.Console.Run
import BindingGraph.Proofs.Files.FileTree
import Mathlib.Data.List.Induction

/-!
# Absolute paths

The absolute path of a location leads there (`FileTree.IsTree.entryAt_child`), unless it is longer
than paths may be: a location has as many bytes as its names with a slash before each (`pathBytes`).
What an operation does to a name in a directory is then told by what there is at the location and by
that length alone.
-/

namespace BindingGraph

open Console (pathOfLocation)

/-! ## Trees of names -/

/-- A text that can be the name of a file or a directory. -/
structure IsFileName (name : String) : Prop where
  ne_empty : name ≠ ""
  ne_dot : name ≠ "."
  ne_back : name ≠ ".."
  no_slash : '/' ∉ name.toList
  no_nul : '\x00' ∉ name.toList
  short : name.utf8ByteSize ≤ FileTree.maxNameBytes

theorem isFileName_iff {name : String} :
    IsFileName name ↔ name ≠ "" ∧ name ≠ "." ∧ name ≠ ".." ∧ '/' ∉ name.toList ∧
      '\x00' ∉ name.toList ∧ name.utf8ByteSize ≤ FileTree.maxNameBytes := by
  constructor
  · rintro ⟨h1, h2, h3, h4, h5, h6⟩
    exact ⟨h1, h2, h3, h4, h5, h6⟩
  · rintro ⟨h1, h2, h3, h4, h5, h6⟩
    exact ⟨h1, h2, h3, h4, h5, h6⟩

instance (name : String) : Decidable (IsFileName name) := decidable_of_iff _ isFileName_iff.symm

theorem IsFileName.not_trivial {name : String} (h : IsFileName name) :
    ¬ FilePath.isTrivial name = true := by
  simp [FilePath.isTrivial, h.ne_empty, h.ne_dot]

theorem isFileName_of_mem_concat {place : Location} {name : String}
    (hplace : ∀ other ∈ place, IsFileName other) (hname : IsFileName name) :
    ∀ other ∈ place ++ [name], IsFileName other := by
  intro other hother
  rcases List.mem_append.mp hother with hother | hother
  · exact hplace other hother
  · exact List.mem_singleton.mp hother ▸ hname

/-- The bytes of an absolute path: those of the names, and a slash before each. -/
def pathBytes : Location → Nat
  | [] => 0
  | name :: names => name.utf8ByteSize + 1 + pathBytes names

theorem pathBytes_append (place names : Location) :
    pathBytes (place ++ names) = pathBytes place + pathBytes names := by
  induction place with
  | nil => rw [List.nil_append, pathBytes, Nat.zero_add]
  | cons name place ih =>
    rw [List.cons_append, pathBytes, pathBytes, ih]
    omega

theorem pathBytes_replicate (count : Nat) (name : String) :
    pathBytes (List.replicate count name) = count * (name.utf8ByteSize + 1) := by
  induction count with
  | zero => rw [List.replicate_zero, pathBytes, Nat.zero_mul]
  | succ count ih => rw [List.replicate_succ, pathBytes, ih, Nat.succ_mul, Nat.add_comm]

/-! ## The text of an absolute path -/

section Text

variable {place : Location} {name : String}

theorem utf8ByteSize_intercalate (first : String) (names : Location) :
    ("/".intercalate (first :: names)).utf8ByteSize = first.utf8ByteSize + pathBytes names := by
  induction names generalizing first with
  | nil => rw [String.intercalate_singleton]; rfl
  | cons name names ih =>
    have hslash : "/".utf8ByteSize = 1 := rfl
    rw [String.intercalate_cons_cons, String.utf8ByteSize_append, String.utf8ByteSize_append, ih,
      pathBytes, hslash]
    omega

theorem mem_intercalate {ch : Char} {separator first : String} {names : List String}
    (h : ch ∈ (separator.intercalate (first :: names)).toList) :
    ch ∈ separator.toList ∨ ∃ name ∈ first :: names, ch ∈ name.toList := by
  induction names generalizing first with
  | nil =>
    rw [String.intercalate_singleton] at h
    exact .inr ⟨first, List.mem_singleton.mpr rfl, h⟩
  | cons name names ih =>
    rw [String.intercalate_cons_cons, String.toList_append, String.toList_append, List.mem_append,
      List.mem_append] at h
    rcases h with (h | h) | h
    · exact .inr ⟨first, List.mem_cons_self, h⟩
    · exact .inl h
    · rcases ih h with hbetween | ⟨other, hother, hmem⟩
      · exact .inl hbetween
      · exact .inr ⟨other, List.mem_cons_of_mem _ hother, hmem⟩

theorem parts_pathOfLocation_root : (pathOfLocation []).parts = ["", ""] := rfl

theorem parts_pathOfLocation (h : place ≠ []) : (pathOfLocation place).parts = "" :: place := by
  cases place with
  | nil => exact absurd rfl h
  | cons name names => rfl

theorem parts_pathOfLocation_concat (place : Location) (name : String) :
    (pathOfLocation (place ++ [name])).parts = "" :: (place ++ [name]) :=
  parts_pathOfLocation (List.append_ne_nil_of_right_ne_nil _ (List.cons_ne_nil _ _))

theorem isAbsolute_pathOfLocation (place : Location) :
    (pathOfLocation place).isAbsolute = true := by
  cases place with
  | nil => rfl
  | cons name names => rfl

theorem utf8ByteSize_text_pathOfLocation (place : Location) :
    (pathOfLocation place).text.utf8ByteSize = max 1 (pathBytes place) := by
  cases place with
  | nil => rfl
  | cons name names =>
    rw [FilePath.text, parts_pathOfLocation (List.cons_ne_nil _ _), utf8ByteSize_intercalate,
      pathBytes]
    simp
    omega

theorem contains_text_pathOfLocation (h : ∀ name ∈ place, IsFileName name) :
    (pathOfLocation place).text.contains '\x00' = false := by
  have hnot : '\x00' ∉ (pathOfLocation place).text.toList := by
    intro hmem
    cases place with
    | nil => revert hmem; decide
    | cons name names =>
      rw [FilePath.text, parts_pathOfLocation (List.cons_ne_nil _ _)] at hmem
      rcases mem_intercalate hmem with hslash | ⟨other, hother, hmem⟩
      · exact absurd hslash (by decide)
      · rcases List.mem_cons.mp hother with rfl | hother
        · cases hmem
        · exact (h other hother).no_nul hmem
  rw [String.contains_char_eq]
  exact decide_eq_false hnot

/-! ## Extending a path -/

theorem splitChars_of_slash_not_mem {part cs : List Char} (h : '/' ∉ cs) :
    Text.splitChars ['/'] part cs = [part.reverse ++ cs] := by
  induction cs generalizing part with
  | nil => rw [Text.splitChars, List.append_nil]
  | cons ch cs ih =>
    have hch : ch ≠ '/' := fun heq => h (heq ▸ List.mem_cons_self)
    have hnone : ¬ (['/'] ≠ [] ∧ ['/'].isPrefixOf (ch :: cs) = true) := by
      simp [List.isPrefixOf, hch.symm]
    rw [Text.splitChars, if_neg hnone, ih fun hmem => h (List.mem_cons_of_mem _ hmem)]
    simp

theorem IsFileName.ofText_eq (h : IsFileName name) : FilePath.ofText name = ⟨[name]⟩ := by
  show FilePath.mk ((Text.splitChars ['/'] [] name.toList).map String.ofList) = ⟨[name]⟩
  rw [splitChars_of_slash_not_mem h.no_slash]
  simp

/-- A relative path seen from a location. -/
theorem join_pathOfLocation {first : String} {names : List String}
    (hplace : ∀ name ∈ place, IsFileName name) (hfirst : first ≠ "") :
    (pathOfLocation place).join ⟨first :: names⟩ = pathOfLocation (place ++ first :: names) := by
  have hrelative : FilePath.isAbsolute ⟨first :: names⟩ = false := by
    unfold FilePath.isAbsolute
    split
    · rename_i heq
      exact absurd (List.cons.inj heq).1 hfirst
    · rfl
  rw [FilePath.join, if_neg (by rw [hrelative]; exact Bool.false_ne_true)]
  rcases List.eq_nil_or_concat place with rfl | ⟨front, last, rfl⟩
  · rfl
  · have hlast : last ≠ "" := (hplace last (by simp)).ne_empty
    rw [List.concat_eq_append, parts_pathOfLocation_concat]
    have hne : ¬ ("" :: (front ++ [last])).getLast? = some "" := by
      rw [← List.cons_append, List.getLast?_concat]
      simpa using hlast
    rw [if_neg hne]
    exact congrArg FilePath.mk (parts_pathOfLocation (by simp)).symm

theorem child_pathOfLocation (hplace : ∀ name ∈ place, IsFileName name) (hname : IsFileName name) :
    (pathOfLocation place).child name = pathOfLocation (place ++ [name]) := by
  rw [FilePath.child, hname.ofText_eq, join_pathOfLocation hplace hname.ne_empty]

end Text

/-! ## Parts of an absolute path -/

namespace FilePath

variable {path : FilePath} {place : Location} {name : String}

theorem trimEnd_eq_self {names : List String} (h : ∀ name ∈ names, IsFileName name) :
    trimEnd names = names := by
  rcases List.eq_nil_or_concat names with rfl | ⟨front, last, rfl⟩
  · rfl
  · have hlast : ¬ isTrivial last = true := (h last (by simp)).not_trivial
    rw [trimEnd, List.concat_eq_append, List.reverse_append, List.reverse_singleton,
      List.singleton_append, List.dropWhile_cons_of_neg hlast]
    simp

theorem start_pathOfLocation (place : Location) (name : String) :
    (pathOfLocation (place ++ [name])).start = [""] := by
  cases place <;> rfl

theorem body_pathOfLocation (h : ∀ other ∈ place ++ [name], IsFileName other) :
    (pathOfLocation (place ++ [name])).body = place ++ [name] := by
  cases place with
  | nil => exact trimEnd_eq_self h
  | cons first names => exact trimEnd_eq_self h

theorem parent?_of_body {names : List String} (h : path.body = names) (hne : names ≠ []) :
    path.parent? = some (ofBody path.start (trimEnd names.dropLast)) := by
  cases names with
  | nil => exact absurd rfl hne
  | cons part parts => rw [parent?, h]

theorem parent?_pathOfLocation (h : ∀ other ∈ place ++ [name], IsFileName other) :
    (pathOfLocation (place ++ [name])).parent? = some (pathOfLocation place) := by
  have hplace : trimEnd place = place :=
    trimEnd_eq_self fun other hother => h other (List.mem_append_left _ hother)
  rw [parent?_of_body (body_pathOfLocation h) (by simp), start_pathOfLocation, List.dropLast_concat,
    hplace]
  rfl

theorem fileName?_pathOfLocation (h : ∀ other ∈ place ++ [name], IsFileName other) :
    (pathOfLocation (place ++ [name])).fileName? = some name := by
  have hname : name ≠ ".." := (h name (by simp)).ne_back
  rw [fileName?, body_pathOfLocation h, List.getLast?_concat, Option.filter_some]
  exact if_pos (by simpa using hname)

/-- Another extension takes the place of the one that a file name has. -/
theorem withExtension_pathOfLocation {stem old extension : String}
    (h : ∀ other ∈ place ++ [name], IsFileName other) (hname : splitName name = (stem, some old))
    (hstem : IsFileName (stem ++ ".")) (hsplit : splitName (stem ++ ".") = (stem, some "")) :
    (pathOfLocation (place ++ [name])).withExtension extension =
      pathOfLocation (place ++ [stem ++ "." ++ extension]) := by
  have hplace : ∀ other ∈ place ++ [stem ++ "."], IsFileName other :=
    isFileName_of_mem_concat (fun other hother => h other (List.mem_append_left _ hother)) hstem
  have hup : (pathOfLocation (place ++ [name])).upToExtension =
      pathOfLocation (place ++ [stem ++ "."]) := by
    have hlast : (pathOfLocation (place ++ [name])).parts.getLast? = some name := by
      rw [parts_pathOfLocation_concat, ← List.cons_append, List.getLast?_concat]
    rw [upToExtension, fileName?_pathOfLocation h, Option.map_some, hname]
    dsimp only
    rw [if_pos hlast, parts_pathOfLocation_concat, ← List.cons_append, List.dropLast_concat]
    exact congrArg FilePath.mk (parts_pathOfLocation_concat place (stem ++ ".")).symm
  rw [withExtension, hup]
  rw [stem?, fileName?_pathOfLocation hplace, Option.map_some, hsplit]
  dsimp only
  rw [start_pathOfLocation, body_pathOfLocation hplace, List.dropLast_concat]
  rfl

end FilePath

/-! ## Trees -/

namespace FileTree

/-- What a file tree is like: everything has a name and lies in a directory. -/
structure IsTree (t : FileTree) : Prop where
  names : ∀ entry ∈ t.entries, ∀ name ∈ entry.1, IsFileName name
  parents : ∀ entry ∈ t.entries, t.get? entry.1.dropLast = some .directory

theorem isTree_iff {t : FileTree} :
    t.IsTree ↔ (∀ entry ∈ t.entries, ∀ name ∈ entry.1, IsFileName name) ∧
      ∀ entry ∈ t.entries, t.get? entry.1.dropLast = some .directory :=
  ⟨fun h => ⟨h.names, h.parents⟩, fun h => ⟨h.1, h.2⟩⟩

instance (t : FileTree) : Decidable t.IsTree := decidable_of_iff _ isTree_iff.symm

variable {t : FileTree} {place : Location} {name : String} {entry : Entry}

/-- What is found somewhere other than at the root has been entered there. -/
theorem mem_entries_of_get? (h : t.get? place = some entry) (hne : place ≠ []) :
    (place, entry) ∈ t.entries := by
  rw [get?, if_neg hne] at h
  obtain ⟨front, back, hentries, -⟩ := List.lookup_eq_some_iff.mp h
  rw [hentries]
  simp

theorem isSome_get?_of_mem_entries (h : (place, entry) ∈ t.entries) : (t.get? place).isSome := by
  rw [get?]
  split
  · rfl
  · rw [List.lookup_isSome_iff]
    exact ⟨(place, entry), h, beq_self_eq_true place⟩

namespace IsTree

variable (ht : t.IsTree)
include ht

theorem isFileName_of_mem (h : t.get? place = some entry) : ∀ name ∈ place, IsFileName name := by
  intro name hname
  exact ht.names _ (mem_entries_of_get? h (List.ne_nil_of_mem hname)) name hname

/-- What is there lies in a directory. -/
theorem get?_parent (h : t.get? (place ++ [name]) = some entry) :
    t.get? place = some .directory := by
  have hmem := mem_entries_of_get? h (by simp)
  simpa using ht.parents _ hmem

theorem get?_prefix {rest : Location} (h : t.get? (place ++ rest) = some .directory) :
    t.get? place = some .directory := by
  induction rest using List.reverseRecOn with
  | nil => simpa using h
  | append_singleton rest name ih =>
    rw [← List.append_assoc] at h
    exact ih (ht.get?_parent h)

/-- Below what is not there, nothing is. -/
theorem get?_below_eq_none (h : t.get? place = none) (rest : Location) :
    t.get? (place ++ rest) = none := by
  induction rest using List.reverseRecOn with
  | nil => simpa using h
  | append_singleton rest name ih =>
    rw [← List.append_assoc]
    cases hentry : t.get? (place ++ rest ++ [name]) with
    | none => rfl
    | some entry =>
      have hparent := ht.get?_parent hentry
      rw [ih] at hparent
      cases hparent

end IsTree

/-! ## Following a path -/

theorem follow_name (hplace : t.get? place = some .directory) (hname : IsFileName name) :
    t.follow place [name] =
      if (t.get? (place ++ [name])).isSome then .ok (place ++ [name]) else .error .notFound :=
  follow_part hplace hname.not_trivial hname.ne_back (Nat.not_lt.mpr hname.short)

namespace IsTree

variable (ht : t.IsTree)
include ht

theorem follow_eq (h : t.get? place = some entry) : t.follow [] place = .ok place := by
  induction place using List.reverseRecOn generalizing entry with
  | nil => rfl
  | append_singleton place name ih =>
    have hparent := ht.get?_parent h
    have hname : IsFileName name := ht.isFileName_of_mem h name (by simp)
    rw [follow_append, ih hparent]
    show t.follow place [name] = _
    rw [follow_name hparent hname, h]
    rfl

end IsTree

/-! ## Names in a directory -/

theorem origin_pathOfLocation (h : ∀ name ∈ place, IsFileName name) :
    t.origin (pathOfLocation place) =
      if maxPathBytes < pathBytes place then .error .nameTooLong
      else .ok ([], (pathOfLocation place).parts) := by
  have hparts : ¬ (pathOfLocation place).parts = [""] := by
    cases place <;> simp [parts_pathOfLocation_root, parts_pathOfLocation]
  have hlong : maxPathBytes < max 1 (pathBytes place) ↔ maxPathBytes < pathBytes place := by
    rw [maxPathBytes]
    omega
  rw [origin, contains_text_pathOfLocation h, if_neg Bool.false_ne_true, if_neg hparts,
    utf8ByteSize_text_pathOfLocation, isAbsolute_pathOfLocation, if_pos rfl]
  simp only [hlong]

namespace IsTree

variable (ht : t.IsTree)
include ht

theorem isFileName_concat (hplace : t.get? place = some .directory) (hname : IsFileName name) :
    ∀ other ∈ place ++ [name], IsFileName other :=
  isFileName_of_mem_concat (ht.isFileName_of_mem hplace) hname

theorem locate_eq (h : t.get? place = some entry) (hfits : pathBytes place ≤ maxPathBytes) :
    t.locate (pathOfLocation place) = .ok place := by
  rcases List.eq_nil_or_concat place with rfl | ⟨front, name, rfl⟩
  · rw [locate, origin_pathOfLocation (ht.isFileName_of_mem h), if_neg (Nat.not_lt.mpr hfits)]
    rfl
  · rw [locate, origin_pathOfLocation (ht.isFileName_of_mem h), if_neg (Nat.not_lt.mpr hfits),
      List.concat_eq_append, parts_pathOfLocation_concat]
    rw [List.concat_eq_append] at h
    exact ht.follow_eq h

theorem entryAt_eq (h : t.get? place = some entry) (hfits : pathBytes place ≤ maxPathBytes) :
    t.entryAt (pathOfLocation place) = .ok entry := by
  refine bind_eq_ok_iff.mpr ⟨place, ht.locate_eq h hfits, ?_⟩
  rw [h]

/-- The absolute path of a name in a directory leads to what there is under the name. -/
theorem entryAt_child (hplace : t.get? place = some .directory) (hname : IsFileName name) :
    t.entryAt (pathOfLocation (place ++ [name])) =
      if maxPathBytes < pathBytes (place ++ [name]) then .error .nameTooLong
      else
        match t.get? (place ++ [name]) with
        | some entry => .ok entry
        | none => .error .notFound := by
  have hnames := ht.isFileName_concat hplace hname
  rw [entryAt, locate, origin_pathOfLocation hnames, parts_pathOfLocation_concat]
  split_ifs with hlong
  · rfl
  · have hfollow : t.follow [] ("" :: (place ++ [name])) =
        if (t.get? (place ++ [name])).isSome then .ok (place ++ [name]) else .error .notFound := by
      show t.follow [] (place ++ [name]) = _
      rw [follow_append, ht.follow_eq hplace]
      exact follow_name hplace hname
    show (t.follow [] ("" :: (place ++ [name])) >>= _) = _
    rw [hfollow]
    cases hentry : t.get? (place ++ [name]) with
    | none => rfl
    | some entry =>
      show (match t.get? (place ++ [name]) with | some entry => _ | none => _) = _
      rw [hentry]

/-- The parent of a name in a directory is the directory. -/
theorem locateParent_child (hplace : t.get? place = some .directory) (hname : IsFileName name) :
    t.locateParent (pathOfLocation (place ++ [name])) =
      if maxPathBytes < pathBytes (place ++ [name]) then .error .nameTooLong
      else .ok (place, .name name false) := by
  have horigin := origin_pathOfLocation (t := t) (ht.isFileName_concat hplace hname)
  rw [parts_pathOfLocation_concat] at horigin
  split_ifs at horigin ⊢ with hlong
  · rw [locateParent, horigin]
    rfl
  · have hreverse : ("" :: (place ++ [name])).reverse = name :: ("" :: place).reverse := by simp
    refine locateParent_eq_name_iff.mpr
      ⟨[], "" :: (place ++ [name]), ("" :: place).reverse, horigin, ?_, ?_, hplace, ?_, ?_⟩
    · rw [backward, hreverse, List.dropWhile_cons_of_neg (by simpa using hname.ne_empty)]
    · rw [List.reverse_reverse]
      exact ht.follow_eq hplace
    · simp [hname.ne_dot, hname.ne_back]
    · rw [hreverse, List.takeWhile_cons_of_neg (by simpa using hname.ne_empty)]
      rfl

theorem locateParent_child_of_fits (hplace : t.get? place = some .directory)
    (hname : IsFileName name) (hfits : pathBytes (place ++ [name]) ≤ maxPathBytes) :
    t.locateParent (pathOfLocation (place ++ [name])) = .ok (place, .name name false) := by
  rw [ht.locateParent_child hplace hname, if_neg (Nat.not_lt.mpr hfits)]

end IsTree

/-! ## Trees that change -/

theorem erase_put (t : FileTree) (place : Location) (entry : Entry) :
    (t.put place entry).erase place = t.erase place := by
  have hentries : ((t.put place entry).erase place).entries = (t.erase place).entries := by
    show ((place, entry) :: t.entries.filter (·.1 ≠ place)).filter (·.1 ≠ place) = _
    rw [List.filter_cons_of_neg (by simp), List.filter_filter]
    simp [erase]
  exact congrArg (FileTree.mk · t.current) hentries

theorem erase_eq_self (h : t.get? place = none) : t.erase place = t := by
  have hentries : t.entries.filter (·.1 ≠ place) = t.entries := by
    rw [List.filter_eq_self]
    rintro ⟨other, entry⟩ hentry
    have hne : other ≠ place := by
      rintro rfl
      have hsome := isSome_get?_of_mem_entries hentry
      rw [h] at hsome
      cases hsome
    simpa using hne
  exact congrArg (FileTree.mk · t.current) hentries

/-- A tree with something more in one of its directories is a tree. -/
theorem IsTree.put (ht : t.IsTree) (hplace : t.get? place = some .directory)
    (hname : IsFileName name)
    (hkeep : entry = .directory ∨ t.get? (place ++ [name]) ≠ some .directory) :
    (t.put (place ++ [name]) entry).IsTree := by
  have hparent (other : Location) (hother : t.get? other = some .directory) :
      (t.put (place ++ [name]) entry).get? other = some .directory := by
    by_cases heq : other = place ++ [name]
    · subst heq
      rcases hkeep with rfl | hfile
      · exact get?_put_child _ _ _
      · exact absurd hother hfile
    · rw [get?_put_of_ne heq, hother]
  constructor
  · intro other hother
    rcases List.mem_cons.mp hother with rfl | hother
    · exact ht.isFileName_concat hplace hname
    · exact ht.names other (List.mem_filter.mp hother).1
  · intro other hother
    rcases List.mem_cons.mp hother with rfl | hother
    · rw [List.dropLast_concat]
      exact hparent place hplace
    · exact hparent _ (ht.parents other (List.mem_filter.mp hother).1)

/-- The second tree is the first one but for what is at a location and below it. -/
structure SameOutside (place : Location) (t u : FileTree) : Prop where
  current : u.current = t.current
  get? : ∀ other, ¬ place <+: other → u.get? other = t.get? other

namespace SameOutside

variable {u : FileTree}

theorem refl (place : Location) (t : FileTree) : SameOutside place t t := ⟨rfl, fun _ _ => rfl⟩

theorem put (h : SameOutside place t u) {inside : Location} (hinside : place <+: inside)
    (entry : Entry) :
    SameOutside place t (u.put inside entry) := by
  refine ⟨h.current, ?_⟩
  intro other hother
  have hne : other ≠ inside := fun heq => hother (heq ▸ hinside)
  rw [get?_put_of_ne hne, h.get? other hother]

/-- Where there was nothing, nothing that was there has changed. -/
theorem get?_eq_some (h : SameOutside place t u) (ht : t.IsTree) (hnone : t.get? place = none)
    {other : Location} (hother : t.get? other = some entry) : u.get? other = some entry := by
  rw [h.get? other, hother]
  rintro ⟨rest, rfl⟩
  rw [ht.get?_below_eq_none hnone] at hother
  cases hother

end SameOutside

end FileTree

/-! ## Operations on names in a directory -/

namespace FileAction

variable {t : FileTree} {place : Location} {name : String} {bytes : List UInt8}
  (ht : t.IsTree) (hplace : t.get? place = some .directory) (hname : IsFileName name)
include ht hplace hname

theorem read_child (hfits : pathBytes (place ++ [name]) ≤ FileTree.maxPathBytes)
    (hfile : t.get? (place ++ [name]) = some (.file bytes)) :
    (read (pathOfLocation (place ++ [name]))).run t = (.ok bytes, t) := by
  rw [read, run_ask_bind, ht.entryAt_child hplace hname, if_neg (Nat.not_lt.mpr hfits), hfile]
  rfl

theorem write_child (bytes : List UInt8)
    (hfits : pathBytes (place ++ [name]) ≤ FileTree.maxPathBytes)
    (hnew : t.get? (place ++ [name]) ≠ some .directory) :
    (write (pathOfLocation (place ++ [name])) bytes).run t =
      (.ok (), t.put (place ++ [name]) (.file bytes)) :=
  write_run (ht.locateParent_child_of_fits hplace hname hfits)
    (Nat.not_lt.mpr hname.short) bytes hnew

theorem write_child_of_long (bytes : List UInt8)
    (hlong : FileTree.maxPathBytes < pathBytes (place ++ [name])) :
    (write (pathOfLocation (place ++ [name])) bytes).run t = (.error .nameTooLong, t) := by
  rw [write, run_ask_bind, ht.locateParent_child hplace hname, if_pos hlong]

theorem createDirectory_child (hfits : pathBytes (place ++ [name]) ≤ FileTree.maxPathBytes)
    (hnew : t.get? (place ++ [name]) = none) :
    (createDirectory (pathOfLocation (place ++ [name]))).run t =
      (.ok (), t.put (place ++ [name]) .directory) := by
  rw [createDirectory, run_ask_bind, ht.locateParent_child_of_fits hplace hname hfits]
  dsimp only
  rw [run_ask_bind, lookUp_of_short (Nat.not_lt.mpr hname.short), hnew]
  rfl

theorem createDirectory_child_of_long
    (hlong : FileTree.maxPathBytes < pathBytes (place ++ [name])) :
    (createDirectory (pathOfLocation (place ++ [name]))).run t = (.error .nameTooLong, t) := by
  rw [createDirectory, run_ask_bind, ht.locateParent_child hplace hname, if_pos hlong]

theorem createPath_child (hfits : pathBytes (place ++ [name]) ≤ FileTree.maxPathBytes)
    (hnew : t.get? (place ++ [name]) = none) :
    (createPath (pathOfLocation (place ++ [name]))).run t =
      (.ok (), t.put (place ++ [name]) .directory) := by
  have hstep := createDirectory_child ht hplace hname hfits hnew
  have hparts : ¬ (pathOfLocation (place ++ [name])).parts = [""] := by
    rw [parts_pathOfLocation_concat]
    simp
  rw [createPath, parts_pathOfLocation_concat, List.length_cons, createDirectories, if_neg hparts]
  rw [run_bind_of_ok run_get, hstep]
  rfl

theorem createPath_child_of_long (hlong : FileTree.maxPathBytes < pathBytes (place ++ [name])) :
    (createPath (pathOfLocation (place ++ [name]))).run t = (.error .nameTooLong, t) := by
  have hstep := createDirectory_child_of_long ht hplace hname hlong
  have hparts : ¬ (pathOfLocation (place ++ [name])).parts = [""] := by
    rw [parts_pathOfLocation_concat]
    simp
  have hnone : t.isDirectory (pathOfLocation (place ++ [name])) = false := by
    rw [FileTree.isDirectory, ht.entryAt_child hplace hname, if_pos hlong]
  rw [createPath, parts_pathOfLocation_concat, List.length_cons, createDirectories, if_neg hparts]
  rw [run_bind_of_ok run_get, hstep]
  dsimp only
  rw [hnone]
  rfl

theorem moveFile_child {other : String} (hother : IsFileName other)
    (hfits : pathBytes (place ++ [name]) ≤ FileTree.maxPathBytes)
    (hfits' : pathBytes (place ++ [other]) ≤ FileTree.maxPathBytes)
    (hfile : t.get? (place ++ [name]) = some (.file bytes))
    (hnew : t.get? (place ++ [other]) ≠ some .directory) :
    (moveFile (pathOfLocation (place ++ [name])) (pathOfLocation (place ++ [other]))).run t =
      (.ok (), (t.erase (place ++ [name])).put (place ++ [other]) (.file bytes)) :=
  moveFile_run (ht.locateParent_child_of_fits hplace hname hfits) (Nat.not_lt.mpr hname.short)
    (ht.locateParent_child_of_fits hplace hother hfits') (Nat.not_lt.mpr hother.short) hfile hnew

theorem moveFile_child_of_long {other : String} (hother : IsFileName other)
    (hlong : FileTree.maxPathBytes < pathBytes (place ++ [other])) :
    (moveFile (pathOfLocation (place ++ [name])) (pathOfLocation (place ++ [other]))).run t =
      (.error .nameTooLong, t) := by
  rw [moveFile, run_ask_bind, ht.locateParent_child hplace hname]
  split_ifs with hfits
  · rfl
  · dsimp only
    rw [run_ask_bind, ht.locateParent_child hplace hother, if_pos hlong]

theorem removeFile_child (hfits : pathBytes (place ++ [name]) ≤ FileTree.maxPathBytes)
    (hfile : t.get? (place ++ [name]) = some (.file bytes)) :
    (removeFile (pathOfLocation (place ++ [name]))).run t = (.ok (), t.erase (place ++ [name])) :=
  removeFile_run (ht.locateParent_child_of_fits hplace hname hfits)
    (Nat.not_lt.mpr hname.short) hfile

theorem removeFile_child_of_long (hlong : FileTree.maxPathBytes < pathBytes (place ++ [name])) :
    (removeFile (pathOfLocation (place ++ [name]))).run t = (.error .nameTooLong, t) := by
  rw [removeFile, run_ask_bind, ht.locateParent_child hplace hname, if_pos hlong]

end FileAction

end BindingGraph
