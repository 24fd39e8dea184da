import BindingGraph.Proofs.Record.Accepted

/-!
# What lines are warned of

Each line of a graph file raises warnings of its own, all with its number; of the lines before it
only the keys count that have been accepted there (`LoadWarning.ofLine`). A file raises these
warnings one line after the other and no others, so whatever an accepted record names is either an
edge or warned of (`LoadedGraph.warnings_by_line`).
-/

namespace BindingGraph

open Record

/-! ## One line -/

/-- The warnings of a line with a number, behind the given earlier lines. -/
def LoadWarning.ofLine (earlier : List String) (number : Nat) (line : String) : List LoadWarning :=
  let text := Text.trim line
  if text = "" then []
  else
    match decode text with
    | .error failure => [.malformed number (failure.message text)]
    | .ok record =>
      let key := Text.trim record.key
      if key = "" then [.emptyKey number]
      else
        (record.dependencies.filter (Text.trim · = "")).map
          (fun _ => .emptyDependency key number) ++
          if key ∈ distinctKeys (accepted earlier) then [.duplicateBinding key number] else []

namespace LoadWarning

variable {earlier : List String} {number : Nat} {line : String} {record : Record}

theorem ofLine_record (hrecord : decode (Text.trim line) = .ok record)
    (hkey : Text.trim record.key ≠ "") :
    ofLine earlier number line =
      List.replicate (record.dependencies.countP (Text.trim · = ""))
          (.emptyDependency (Text.trim record.key) number) ++
        if Text.trim record.key ∈ distinctKeys (accepted earlier) then
          [.duplicateBinding (Text.trim record.key) number] else [] := by
  have htext : Text.trim line ≠ "" := by
    intro htext
    rw [htext] at hrecord
    cases hrecord
  simp [ofLine, htext, hrecord, hkey, List.countP_eq_length_filter]

/-- All warnings of a line have its number. -/
theorem line_of_mem_ofLine {warning : LoadWarning} (h : warning ∈ ofLine earlier number line) :
    warning.line = number := by
  unfold ofLine at h
  dsimp only at h
  split at h
  · cases h
  · split at h
    · rw [List.mem_singleton.mp h, LoadWarning.line]
    · split at h
      · rw [List.mem_singleton.mp h, LoadWarning.line]
      · rcases List.mem_append.mp h with h | h
        · obtain ⟨_, -, rfl⟩ := List.mem_map.mp h
          rw [LoadWarning.line]
        · split at h
          · rw [List.mem_singleton.mp h, LoadWarning.line]
          · cases h

end LoadWarning

/-! ## All lines -/

namespace Ledger

variable {ledger : Ledger} {earlier : List String}

/-- Behind the earlier lines, a line adds its own warnings. -/
theorem warnings_accept (h : ledger.bindings = joined (accepted earlier)) (number : Nat)
    (line : String) :
    (ledger.accept number (.read line)).warnings =
      ledger.warnings ++ LoadWarning.ofLine earlier number line := by
  have hkey {key : String} : ledger.hasKey key = true ↔ key ∈ distinctKeys (accepted earlier) := by
    rw [hasKey_iff, keys, h, keys_joined]
  unfold RecordLine.read LoadWarning.ofLine
  dsimp only
  split_ifs with htext
  · simp [accept]
  · cases decode (Text.trim line) with
    | error failure => rfl
    | ok record =>
      dsimp only
      split_ifs with hempty hrepeated
      · rfl
      · simp only [accept, if_pos (hkey.mpr hrepeated), List.map_const', List.filter_map,
          List.length_map, List.append_assoc]
        rfl
      · simp only [accept, if_neg (mt hkey.mp hrepeated), List.map_const', List.filter_map,
          List.length_map, List.append_nil]
        rfl

/-- A run of lines behind the earlier ones adds the warnings of each. -/
theorem warnings_acceptAll (h : ledger.bindings = joined (accepted earlier)) (lines : List String) :
    (ledger.acceptAll (earlier.length + 1) lines).warnings =
      ledger.warnings ++ (lines.zipIdx earlier.length).flatMap fun (line, index) =>
        LoadWarning.ofLine ((earlier ++ lines).take index) (index + 1) line := by
  induction lines generalizing ledger earlier with
  | nil => simp [acceptAll]
  | cons line lines ih =>
    have hnext : (ledger.accept (earlier.length + 1) (.read line)).bindings =
        joined (accepted (earlier ++ [line])) := by
      rw [bindings_accept h, accepted, accepted, List.filterMap_append]
      cases hline : ofLine? line <;> simp [hline]
    have hrest := ih hnext
    rw [List.length_append, List.length_singleton, warnings_accept h, List.append_assoc,
      List.append_assoc] at hrest
    have hearlier : (earlier ++ line :: lines).take earlier.length = earlier := List.take_left
    rw [acceptAll, hrest, List.zipIdx_cons, List.flatMap_cons]
    simp only [hearlier]
    rfl

theorem warnings_ofLines (lines : List String) :
    (ofLines lines).warnings =
      lines.zipIdx.flatMap fun (line, index) =>
        LoadWarning.ofLine (lines.take index) (index + 1) line := by
  have hnone : ({} : Ledger).bindings = joined (accepted []) := rfl
  exact warnings_acceptAll hnone lines

end Ledger

/-! ## Nothing is lost -/

namespace LoadedGraph

variable {lines : List String} {index : Nat} {line : String} {record : Record}

/-- Other lines have other numbers. -/
theorem filter_warnings_eq_nil {entries : List (String × Nat)}
    (h : ∀ entry ∈ entries, entry.2 ≠ index) :
    (entries.flatMap fun (line, other) =>
      LoadWarning.ofLine (lines.take other) (other + 1) line).filter (·.line = index + 1) = [] := by
  rw [List.filter_eq_nil_iff]
  intro warning hwarning
  obtain ⟨⟨line, other⟩, hentry, hwarning⟩ := List.mem_flatMap.mp hwarning
  have hother : other ≠ index := h _ hentry
  simp [LoadWarning.line_of_mem_ofLine hwarning, hother]

/-- The warnings with the number of a line are its own. -/
theorem filter_warnings_ofLines (h : lines[index]? = some line) :
    (ofLines lines).warnings.filter (·.line = index + 1) =
      LoadWarning.ofLine (lines.take index) (index + 1) line := by
  obtain ⟨hindex, rfl⟩ := List.getElem?_eq_some_iff.mp h
  have hlength : (lines.take index).length = index := List.length_take_of_le (Nat.le_of_lt hindex)
  have hsplit : lines.zipIdx = (lines.take index).zipIdx ++
      (lines[index], index) :: (lines.drop (index + 1)).zipIdx (index + 1) := by
    conv => lhs; rw [← List.take_append_drop index lines, List.drop_eq_getElem_cons hindex]
    rw [List.zipIdx_append, List.zipIdx_cons, Nat.zero_add, hlength]
  have hbefore : ∀ entry ∈ (lines.take index).zipIdx, entry.2 ≠ index := by
    intro entry hentry
    have hlt := List.snd_lt_of_mem_zipIdx hentry
    omega
  have hbehind : ∀ entry ∈ (lines.drop (index + 1)).zipIdx (index + 1), entry.2 ≠ index := by
    intro entry hentry
    have hle := List.le_snd_of_mem_zipIdx hentry
    omega
  have hown : (LoadWarning.ofLine (lines.take index) (index + 1) lines[index]).filter
      (·.line = index + 1) = LoadWarning.ofLine (lines.take index) (index + 1) lines[index] := by
    rw [List.filter_eq_self]
    intro warning hwarning
    exact decide_eq_true (LoadWarning.line_of_mem_ofLine hwarning)
  show (Ledger.ofLines lines).warnings.filter _ = _
  rw [Ledger.warnings_ofLines, hsplit, List.flatMap_append, List.flatMap_cons, List.filter_append,
    List.filter_append, filter_warnings_eq_nil hbefore, filter_warnings_eq_nil hbehind, hown,
    List.nil_append, List.append_nil]

/-- A line with a record warns of its blank dependencies one by one, and no other line does so
for it. -/
theorem count_emptyDependency (h : lines[index]? = some line)
    (hrecord : decode (Text.trim line) = .ok record) (hkey : Text.trim record.key ≠ "") :
    (ofLines lines).warnings.count (.emptyDependency (Text.trim record.key) (index + 1)) =
      record.dependencies.countP (Text.trim · = "") := by
  rw [← List.count_filter (p := (·.line = index + 1)) (by simp [LoadWarning.line]),
    filter_warnings_ofLines h, LoadWarning.ofLine_record hrecord hkey, List.count_append,
    List.count_replicate_self]
  split_ifs <;> simp

/-- A dependency of an accepted record that is not blank is an edge. -/
theorem mem_dependencies_of_record (hline : line ∈ lines)
    (hrecord : decode (Text.trim line) = .ok record) (hkey : Text.trim record.key ≠ "")
    {dependency : String} (hdependency : dependency ∈ record.dependencies)
    (hblank : Text.trim dependency ≠ "") :
    Text.trim dependency ∈ (ofLines lines).graph.dependencies (Text.trim record.key) := by
  have haccepted : ofLine? line =
      some ⟨Text.trim record.key, (record.dependencies.map Text.trim).filter (· ≠ "")⟩ := by
    rw [ofLine?, hrecord]
    exact if_neg hkey
  rw [dependencies_ofLines, List.mem_eraseDups, mem_dependenciesOf_iff]
  refine ⟨_, List.mem_filterMap.mpr ⟨line, hline, haccepted⟩, rfl, ?_⟩
  exact List.mem_filter.mpr ⟨List.mem_map_of_mem hdependency, decide_eq_true hblank⟩

/-- **Warnings, line by line.** The warnings of a file are those of its lines one after the other,
each line with its number and behind all lines before it. Nothing is lost without one: each
dependency of a record with a key is an edge, or it is blank and has a warning to itself. -/
theorem warnings_by_line (lines : List String) :
    let loaded := ofLines lines
    (loaded.warnings = lines.zipIdx.flatMap fun (line, index) =>
        LoadWarning.ofLine (lines.take index) (index + 1) line) ∧
    ∀ index line record, lines[index]? = some line → decode (Text.trim line) = .ok record →
      Text.trim record.key ≠ "" →
        (∀ dependency ∈ record.dependencies, Text.trim dependency ≠ "" →
          Text.trim dependency ∈ loaded.graph.dependencies (Text.trim record.key)) ∧
        loaded.warnings.count (.emptyDependency (Text.trim record.key) (index + 1)) =
          record.dependencies.countP (Text.trim · = "") := by
  refine ⟨Ledger.warnings_ofLines lines, ?_⟩
  intro index line record hline hrecord hkey
  refine ⟨?_, count_emptyDependency hline hrecord hkey⟩
  intro dependency hdependency hblank
  exact mem_dependencies_of_record (List.mem_of_getElem? hline) hrecord hkey hdependency hblank

/-- A blank line, one that is cut off, a record without a key, and a key that comes back with two
blank dependencies beside one that is not. -/
theorem warnings_by_line_damaged :
    let record : Record := ⟨" a", ["", "c ", " "]⟩
    let lines := ["[\"a\",[\"b\"]]", " ", "[\"a\",", "[\"\",[\"c\"]]", record.text]
    (ofLines lines).warnings =
      [.malformed 3 "EOF while parsing a value at line 1 column 5", .emptyKey 4,
        .emptyDependency "a" 5, .emptyDependency "a" 5, .duplicateBinding "a" 5] ∧
    "c" ∈ (ofLines lines).graph.dependencies "a" ∧
    (ofLines lines).warnings.count (.emptyDependency "a" 5) = 2 := by
  intro record lines
  have hrecord : decode (Text.trim record.text) = .ok record := by
    rw [(isTrimmed_text record).trim_eq, decode_text]
  have hkey : Text.trim record.key = "a" := by decide
  have hname : Text.trim "c " = "c" := by decide
  obtain ⟨-, hrecords⟩ := warnings_by_line lines
  obtain ⟨hedges, hcount⟩ := hrecords 4 record.text record rfl hrecord (by decide)
  have hedge := hedges "c " (by decide) (by decide)
  rw [hkey, hname] at hedge
  rw [hkey] at hcount
  exact ⟨by decide +kernel, hedge, hcount⟩

end LoadedGraph

end BindingGraph
