import BindingGraph.Proofs.Record.LedgerGraph

/-!
# The graph that accepted records declare

A line is accepted when its trimmed text is a record whose trimmed key is not empty; it stands for
that record with its names trimmed and the empty dependencies left out (`Record.ofLine?`). The graph
of the lines of a file is a function of the accepted records alone (`graph_of_accepted`): the
dependencies of a key are those of all its records one after the other, and the names that are no
keys come behind the keys, in the order in which the keys, not the lines, first need them.

The ledger after some lines is the table of their records joined by key (`Ledger.bindings_ofLines`),
which is shown line by line.
-/

namespace BindingGraph

namespace Record

/-- The record that a line stands for, if it is accepted. -/
def ofLine? (line : String) : Option Record :=
  match decode (Text.trim line) with
  | .error _ => none
  | .ok record =>
    if Text.trim record.key = "" then none
    else
      some
        { key := Text.trim record.key
          dependencies := (record.dependencies.map Text.trim).filter (· ≠ "") }

/-- The records of the accepted lines, in line order. -/
def accepted (lines : List String) : List Record := lines.filterMap ofLine?

/-! ## Records joined by key -/

/-- The keys of records, each where it first occurs. -/
def distinctKeys (records : List Record) : List String := (records.map key).eraseDups

/-- The dependencies of all records with a key, one after the other. -/
def dependenciesOf (records : List Record) (key : String) : List String :=
  (records.filter (·.key = key)).flatMap dependencies

/-- One record to a key, with all dependencies of the key. -/
def joined (records : List Record) : List Record :=
  (distinctKeys records).map fun key => ⟨key, dependenciesOf records key⟩

variable {records : List Record} {key : String}

theorem mem_distinctKeys_iff :
    key ∈ distinctKeys records ↔ ∃ record ∈ records, record.key = key := by
  simp [distinctKeys]

theorem mem_dependenciesOf_iff {dependency : String} :
    dependency ∈ dependenciesOf records key ↔
      ∃ record ∈ records, record.key = key ∧ dependency ∈ record.dependencies := by
  simp [dependenciesOf, and_assoc]

theorem dependenciesOf_eq_nil (h : key ∉ distinctKeys records) :
    dependenciesOf records key = [] := by
  rw [List.eq_nil_iff_forall_not_mem]
  intro dependency hdependency
  obtain ⟨record, hrecord, hkey, -⟩ := mem_dependenciesOf_iff.mp hdependency
  exact h (mem_distinctKeys_iff.mpr ⟨record, hrecord, hkey⟩)

theorem distinctKeys_concat (records : List Record) (record : Record) :
    distinctKeys (records ++ [record]) = insertEnd (distinctKeys records) record.key := by
  simp only [distinctKeys, ← foldl_insertEnd_nil, List.map_append, List.foldl_append]
  rfl

theorem dependenciesOf_concat (records : List Record) (record : Record) (key : String) :
    dependenciesOf (records ++ [record]) key =
      dependenciesOf records key ++ if record.key = key then record.dependencies else [] := by
  by_cases hkey : record.key = key
  · simp [dependenciesOf, hkey]
  · simp [dependenciesOf, hkey]

theorem keys_joined (records : List Record) :
    (joined records).map Record.key = distinctKeys records := by
  rw [joined, List.map_map]
  exact List.map_id' _

/-- One more record joins that of its key, or goes to the end if there is none. -/
theorem joined_concat (records : List Record) (record : Record) :
    joined (records ++ [record]) =
      if record.key ∈ distinctKeys records then
        Ledger.merge (joined records) record.key record.dependencies
      else joined records ++ [record] := by
  rw [joined, distinctKeys_concat, insertEnd]
  split
  · rw [joined, Ledger.merge, List.map_map]
    apply List.map_congr_left
    intro key _
    rw [dependenciesOf_concat]
    by_cases hkey : record.key = key
    · simp [hkey]
    · simp [hkey, Ne.symm hkey]
  · rename_i hnew
    rw [List.map_append, joined]
    congr 1
    · apply List.map_congr_left
      intro key hmem
      have hkey : record.key ≠ key := by
        rintro rfl
        exact hnew hmem
      simp [dependenciesOf_concat, hkey]
    · simp [dependenciesOf_concat, dependenciesOf_eq_nil hnew]

end Record

open Record

/-! ## The ledger, line by line -/

/-- What a line stands for can be told from how it is read. -/
theorem RecordLine.ofLine?_eq (line : String) :
    ofLine? line =
      match RecordLine.read line with
      | .binding key dependencies _ => some ⟨key, dependencies⟩
      | _ => none := by
  unfold ofLine? RecordLine.read
  by_cases htext : Text.trim line = ""
  · have hempty : ∃ failure, Record.decode "" = .error failure := ⟨_, rfl⟩
    obtain ⟨failure, hfailure⟩ := hempty
    simp [htext, hfailure]
  · simp only [htext, if_false]
    cases Record.decode (Text.trim line) with
    | error failure => rfl
    | ok record =>
      by_cases hkey : Text.trim record.key = ""
      · simp [hkey]
      · simp [hkey]

namespace Ledger

variable {ledger : Ledger} {records : List Record}

/-- A line that is not accepted leaves the bindings as they are, and an accepted one joins them. -/
theorem bindings_accept (h : ledger.bindings = joined records) (number : Nat) (line : String) :
    (ledger.accept number (.read line)).bindings = joined (records ++ (ofLine? line).toList) := by
  rw [RecordLine.ofLine?_eq]
  cases RecordLine.read line with
  | blank => simpa [accept] using h
  | malformed error => simpa [accept] using h
  | emptyKey => simpa [accept] using h
  | binding key dependencies dropped =>
    have hkeys : ledger.keys = distinctKeys records := by
      rw [keys, h, keys_joined]
    simp only [Option.toList_some]
    rw [joined_concat, ← hkeys, ← h]
    by_cases hkey : ledger.hasKey key = true
    · simp [accept, hkey, hasKey_iff.mp hkey]
    · have hnew : key ∉ ledger.keys := fun hmem => hkey (hasKey_iff.mpr hmem)
      simp [accept, hkey, hnew]

theorem bindings_acceptAll (h : ledger.bindings = joined records) (number : Nat)
    (lines : List String) :
    (ledger.acceptAll number lines).bindings = joined (records ++ accepted lines) := by
  induction lines generalizing ledger records number with
  | nil => simpa [accepted, acceptAll] using h
  | cons line lines ih =>
    rw [acceptAll, ih (bindings_accept h number line), accepted, accepted, List.append_assoc]
    cases hline : ofLine? line <;> simp [hline]

/-- The ledger of lines holds their accepted records, joined by key. -/
theorem bindings_ofLines (lines : List String) :
    (ofLines lines).bindings = joined (accepted lines) := by
  have hnone : ({} : Ledger).bindings = joined [] := rfl
  exact bindings_acceptAll hnone 1 lines

theorem keys_ofLines (lines : List String) :
    (ofLines lines).keys = distinctKeys (accepted lines) := by
  rw [keys, bindings_ofLines, keys_joined]

end Ledger

/-! ## The graph -/

namespace LoadedGraph

theorem dependencies_ofLines (lines : List String) (name : String) :
    (ofLines lines).graph.dependencies name =
      (dependenciesOf (accepted lines) name).eraseDups := by
  have hkeys := (Ledger.isProper_ofLines lines).keys_nodup
  show targets (Ledger.ofLines lines).graph.edges name = _
  rw [Ledger.edges_graph hkeys]
  rw [Ledger.keys_ofLines] at hkeys
  by_cases hname : name ∈ distinctKeys (accepted lines)
  · apply targets_edgesOf
    · rwa [Ledger.keys_groups, Ledger.keys_ofLines]
    · rw [Ledger.groups, Ledger.bindings_ofLines, joined, List.map_map]
      refine List.mem_map.mpr ⟨name, hname, ?_⟩
      rw [← foldl_insertEnd_nil]
      rfl
  · rw [dependenciesOf_eq_nil hname]
    apply targets_edgesOf_eq_nil
    rwa [Ledger.keys_groups, Ledger.keys_ofLines]

theorem nodes_ofLines (lines : List String) :
    (ofLines lines).graph.nodes =
      let keys := distinctKeys (accepted lines)
      keys ++ ((keys.flatMap (dependenciesOf (accepted lines))).filter (· ∉ keys)).eraseDups := by
  have hkeys := (Ledger.isProper_ofLines lines).keys_nodup
  show (Ledger.ofLines lines).graph.nodes = _
  rw [Ledger.nodes_graph_eq hkeys, Ledger.keys_ofLines, Ledger.bindings_ofLines, joined,
    List.flatMap_map]

/-- **What a file declares.** A key depends on the dependencies of all its accepted records in
line order, each once, and no other name depends on anything. The nodes are the keys in the order
of their first records, and then the dependencies that are no keys, in the order of the keys'
joined lists. -/
theorem graph_of_accepted (lines : List String) :
    let records := accepted lines
    let keys := distinctKeys records
    (∀ name, (ofLines lines).graph.dependencies name =
      if name ∈ keys then (dependenciesOf records name).eraseDups else []) ∧
    (ofLines lines).graph.nodes =
      keys ++ ((keys.flatMap (dependenciesOf records)).filter (· ∉ keys)).eraseDups := by
  refine ⟨?_, nodes_ofLines lines⟩
  intro name
  rw [dependencies_ofLines]
  split
  · rfl
  · rename_i hname
    rw [dependenciesOf_eq_nil hname]
    rfl

example :
    let lines := ["[\"a\",[\"b\",\"d\"]]", "[\"c\",[\"e\"]]", "key",
      "[\" a\",[\"c \",\" \",\"b\"]]"]
    (ofLines lines).graph.bindings =
      [("a", ["b", "d", "c"]), ("c", ["e"]), ("b", []), ("d", []), ("e", [])] := by
  decide +kernel

end LoadedGraph

end BindingGraph
