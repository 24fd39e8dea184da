import BindingGraph.Proofs.Files.FileNames
import BindingGraph.Proofs.Text.Separated
import Mathlib.Data.List.Nodup

/-!
# What a directory lists

A directory lists the names of what is in it (`FileTree.mem_names_iff`), in some order, and each of
them once if nothing is in the tree twice (`FileTree.nodup_names`). Whatever path leads to the
directory, with one of the names behind it it leads to what there is under the name, unless it has
become longer than paths may be (`FileTree.entryAt_child_eq`).
-/

namespace BindingGraph

/-! ## A path with a name behind it -/

namespace FilePath

variable {path : FilePath} {name : String}

theorem isAbsolute_iff :
    path.isAbsolute = true ↔ ∃ first rest, path.parts = "" :: first :: rest := by
  unfold isAbsolute
  split
  · rename_i first rest hparts
    exact iff_of_true rfl ⟨first, rest, hparts⟩
  · rename_i hother
    refine iff_of_false Bool.false_ne_true ?_
    rintro ⟨first, rest, hparts⟩
    exact hother first rest hparts

theorem child_eq (hname : IsFileName name) :
    path.child name =
      if path.parts.getLast? = some "" then ⟨path.parts.dropLast ++ [name]⟩
      else ⟨path.parts ++ [name]⟩ := by
  have hrelative : ¬ isAbsolute ⟨[name]⟩ = true := by
    rw [isAbsolute_iff]
    simp
  rw [child, hname.ofText_eq, join, if_neg hrelative]

/-- The name is the last part, in place of the empty one behind a slash at the end. -/
theorem exists_child_eq (path : FilePath) (hname : IsFileName name) :
    ∃ front, path.child name = ⟨front ++ [name]⟩ ∧
      (path.parts = front ∨ path.parts = front ++ [""]) := by
  rw [child_eq hname]
  split_ifs with hslash
  · obtain ⟨front, hparts⟩ := List.getLast?_eq_some_iff.mp hslash
    refine ⟨front, ?_, .inr hparts⟩
    rw [hparts, List.dropLast_concat]
  · exact ⟨path.parts, rfl, .inl rfl⟩

theorem isAbsolute_child (hname : IsFileName name) (hpath : path.parts ≠ [""]) :
    (path.child name).isAbsolute = path.isAbsolute := by
  obtain ⟨front, hchild, hparts⟩ := path.exists_child_eq hname
  rw [hchild, Bool.eq_iff_iff, isAbsolute_iff, isAbsolute_iff]
  rcases hparts with hparts | hparts
  · rw [hparts] at hpath ⊢
    match front with
    | [] => simp
    | [first] => simpa using hpath
    | first :: second :: rest => simp
  · rw [hparts] at hpath ⊢
    match front with
    | [] => exact absurd rfl hpath
    | [first] => simp
    | first :: second :: rest => simp

/-- A character of a path with a name behind it is one of the path, one of the name, or a slash. -/
theorem mem_text_child {ch : Char} (hname : IsFileName name)
    (h : ch ∈ (path.child name).text.toList) :
    ch = '/' ∨ ch ∈ path.text.toList ∨ ch ∈ name.toList := by
  obtain ⟨front, hchild, hparts⟩ := path.exists_child_eq hname
  have hfront : ∀ part ∈ front, part ∈ path.parts := by
    intro part hpart
    rcases hparts with hparts | hparts
    · exact hparts ▸ hpart
    · exact hparts ▸ List.mem_append_left _ hpart
  obtain ⟨first, rest, hfirst⟩ := List.exists_cons_of_ne_nil
    (List.append_ne_nil_of_right_ne_nil front (List.cons_ne_nil name []))
  rw [hchild, hfirst, text] at h
  rcases mem_intercalate h with hslash | ⟨part, hpart, hch⟩
  · exact .inl (List.mem_singleton.mp hslash)
  · rw [← hfirst, List.mem_append, List.mem_singleton] at hpart
    rcases hpart with hpart | rfl
    · exact .inr (.inl (Text.mem_intercalate_of_mem (hfront part hpart) hch))
    · exact .inr (.inr hch)

/-- A path is written as the text that it is taken from. -/
theorem text_ofText (text : String) : (ofText text).text = text := Text.intercalate_splitOn "/" text

/-- The name comes with at most a slash in front of it. -/
theorem utf8ByteSize_text_child_le (path : FilePath) (hname : IsFileName name) :
    (path.child name).text.utf8ByteSize ≤ path.text.utf8ByteSize + 1 + name.utf8ByteSize := by
  obtain ⟨front, hchild, hparts⟩ := path.exists_child_eq hname
  rw [hchild]
  cases front with
  | nil => simp [text]
  | cons first front =>
    have hpath : first.utf8ByteSize + pathBytes front ≤ path.text.utf8ByteSize := by
      rcases hparts with hparts | hparts
      · rw [text, hparts, utf8ByteSize_intercalate]
      · rw [text, hparts, List.cons_append, utf8ByteSize_intercalate, pathBytes_append]
        omega
    rw [text, List.cons_append, utf8ByteSize_intercalate, pathBytes_append, pathBytes, pathBytes]
    omega

end FilePath

namespace FileTree

variable {t : FileTree} {path : FilePath} {place : Location} {name : String}

/-! ## The names in a directory -/

theorem names_eq (t : FileTree) (place : Location) :
    t.names place = (t.entries.map Prod.fst).filterMap fun other =>
      if other.dropLast = place then other.getLast? else none := by
  rw [names, List.filterMap_map]
  rfl

theorem mem_ite_getLast?_iff {other : Location} :
    name ∈ (if other.dropLast = place then other.getLast? else none) ↔ other = place ++ [name] := by
  constructor
  · intro h
    split_ifs at h with hplace
    · obtain ⟨front, rfl⟩ := List.getLast?_eq_some_iff.mp h
      rw [← hplace, List.dropLast_concat]
    · cases h
  · rintro rfl
    rw [List.dropLast_concat, if_pos rfl, List.getLast?_concat]
    rfl

theorem mem_names_iff : name ∈ t.names place ↔ ∃ entry, t.get? (place ++ [name]) = some entry := by
  rw [← Option.isSome_iff_exists, names_eq, List.mem_filterMap]
  constructor
  · rintro ⟨other, hother, hname⟩
    obtain ⟨⟨_, entry⟩, hentry, rfl⟩ := List.mem_map.mp hother
    obtain rfl := mem_ite_getLast?_iff.mp hname
    exact isSome_get?_of_mem_entries hentry
  · intro h
    obtain ⟨entry, hentry⟩ := Option.isSome_iff_exists.mp h
    refine ⟨place ++ [name], ?_, mem_ite_getLast?_iff.mpr rfl⟩
    exact List.mem_map_of_mem (mem_entries_of_get? hentry (by simp))

/-- Nothing is listed twice. -/
theorem nodup_names (h : (t.entries.map Prod.fst).Nodup) (place : Location) :
    (t.names place).Nodup := by
  rw [names_eq]
  refine h.filterMap ?_
  intro other other' name hname hname'
  rw [mem_ite_getLast?_iff] at hname hname'
  rw [hname, hname']

/-! ## Behind a path to a directory -/

theorem origin_child {start : Location} {parts : List String}
    (h : t.origin path = .ok (start, parts)) (hname : IsFileName name) :
    t.origin (path.child name) =
      if maxPathBytes < (path.child name).text.utf8ByteSize then .error .nameTooLong
      else .ok (start, (path.child name).parts) := by
  obtain ⟨hnul, hempty, -, hstart, rfl⟩ := origin_eq_ok_iff.mp h
  have hnulChild : ¬ (path.child name).text.contains '\x00' = true := by
    rw [String.contains_char_eq, decide_eq_true_eq] at hnul ⊢
    intro hmem
    rcases FilePath.mem_text_child hname hmem with hslash | hpath | hname'
    · exact absurd hslash (by decide)
    · exact hnul hpath
    · exact hname.no_nul hname'
  have hemptyChild : (path.child name).parts ≠ [""] := by
    obtain ⟨front, hchild, -⟩ := path.exists_child_eq hname
    rw [hchild]
    intro hparts
    have hlast : (front ++ [name]).getLast? = [""].getLast? := congrArg List.getLast? hparts
    rw [List.getLast?_concat, List.getLast?_singleton, Option.some_inj] at hlast
    exact hname.ne_empty hlast
  split_ifs with hlong
  · rw [origin, if_neg hnulChild, if_neg hemptyChild, if_pos hlong]
  · rw [← FilePath.isAbsolute_child hname hempty] at hstart
    exact origin_eq_ok_iff.mpr ⟨hnulChild, hemptyChild, hlong, hstart, rfl⟩

theorem origin_ofText {text : String} (hnul : '\x00' ∉ text.toList)
    (hparts : (FilePath.ofText text).parts ≠ [""]) (hfits : text.utf8ByteSize ≤ maxPathBytes) :
    t.origin (.ofText text) =
      .ok (if (FilePath.ofText text).isAbsolute then [] else t.current,
        (FilePath.ofText text).parts) := by
  have hnot : ¬ text.contains '\x00' = true := by rwa [String.contains_char_eq, decide_eq_true_eq]
  rw [origin, FilePath.text_ofText, if_neg hnot, if_neg hparts, if_neg (Nat.not_lt.mpr hfits)]

theorem origin_fileName (hname : IsFileName name) :
    t.origin (.ofText name) = .ok (t.current, [name]) := by
  have hlong : maxNameBytes ≤ maxPathBytes := by decide
  have hrelative : ¬ FilePath.isAbsolute ⟨[name]⟩ = true := by
    rw [FilePath.isAbsolute_iff]
    simp
  have hparts : (FilePath.ofText name).parts ≠ [""] := by
    rw [hname.ofText_eq]
    simpa using hname.ne_empty
  rw [origin_ofText hname.no_nul hparts (hname.short.trans hlong), hname.ofText_eq,
    if_neg hrelative]

theorem locate_fileName (hname : IsFileName name) :
    t.locate (.ofText name) = t.follow t.current [name] := by
  rw [locate, origin_fileName hname]
  rfl

/-- A slash at the end of the way to a directory does not lead further. -/
theorem follow_of_follow_slash {start : Location} {front : List String}
    (h : t.follow start (front ++ [""]) = .ok place) : t.follow start front = .ok place := by
  rw [follow_append] at h
  obtain ⟨middle, hmiddle, hslash⟩ := bind_eq_ok_iff.mp h
  rw [follow] at hslash
  split at hslash
  · rw [if_pos (by rfl), follow] at hslash
    cases hslash
    exact hmiddle
  · cases hslash
  · cases hslash

/-- **A name in a directory.** Behind a path to the directory, the name leads to what is there, if
the path with the name is not too long. -/
theorem entryAt_child_eq (hpath : t.locate path = .ok place)
    (hplace : t.get? place = some .directory) (hname : IsFileName name) :
    t.entryAt (path.child name) =
      if maxPathBytes < (path.child name).text.utf8ByteSize then .error .nameTooLong
      else
        match t.get? (place ++ [name]) with
        | some entry => .ok entry
        | none => .error .notFound := by
  obtain ⟨⟨start, parts⟩, horigin, hfollow⟩ := bind_eq_ok_iff.mp hpath
  obtain rfl := parts_of_origin horigin
  obtain ⟨front, hchild, hparts⟩ := path.exists_child_eq hname
  have hfront : t.follow start front = .ok place := by
    rcases hparts with hparts | hparts
    · rwa [hparts] at hfollow
    · rw [hparts] at hfollow
      exact follow_of_follow_slash hfollow
  have hchildFollow : t.follow start (path.child name).parts =
      if (t.get? (place ++ [name])).isSome then .ok (place ++ [name]) else .error .notFound := by
    rw [hchild, follow_append, hfront]
    exact follow_name hplace hname
  rw [entryAt, locate, origin_child horigin hname]
  split_ifs with hlong
  · rfl
  · show (t.follow start (path.child name).parts >>= _) = _
    rw [hchildFollow]
    cases hentry : t.get? (place ++ [name]) with
    | none => rfl
    | some entry =>
      show (match t.get? (place ++ [name]) with | some entry => _ | none => _) = _
      rw [hentry]

end FileTree

end BindingGraph
