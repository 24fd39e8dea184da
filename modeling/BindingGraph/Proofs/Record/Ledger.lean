import BindingGraph.Proofs.Record.Written
import BindingGraph.Record.Ledger

/-!
# What the lines of a graph file leave in the ledger

Whatever the lines hold, the names that get into the ledger are trimmed and not empty, and no key
gets into it twice (`Ledger.isProper_ofLines`). Records with such names and distinct keys, written
one to a line, come back as they are and raise no warning (`Ledger.ofLines_texts`).
-/

namespace BindingGraph

/-- A name that a graph file can declare. -/
structure IsName (name : String) : Prop where
  ne_empty : name ≠ ""
  isTrimmed : Text.IsTrimmed name

theorem isName_iff {name : String} : IsName name ↔ name ≠ "" ∧ Text.IsTrimmed name :=
  ⟨fun h => ⟨h.ne_empty, h.isTrimmed⟩, fun h => ⟨h.1, h.2⟩⟩

instance (name : String) : Decidable (IsName name) := decidable_of_iff _ isName_iff.symm

/-- A record whose names a graph file can declare. -/
structure Record.IsProper (record : Record) : Prop where
  key : IsName record.key
  dependencies : ∀ dependency ∈ record.dependencies, IsName dependency

/-! ## One line -/

namespace RecordLine

theorem map_trim_eq {names : List String} (h : ∀ name ∈ names, IsName name) :
    names.map Text.trim = names := by
  rw [List.map_congr_left fun name hname => (h name hname).isTrimmed.trim_eq]
  exact List.map_id' names

/-- A record that has been written is read as it is. -/
theorem read_text {record : Record} (h : record.IsProper) :
    read record.text = .binding record.key record.dependencies 0 := by
  have hne : record.text ≠ "" := by
    intro heq
    have hhead := Record.head?_text record
    rw [heq] at hhead
    cases hhead
  have hkept : record.dependencies.filter (· ≠ "") = record.dependencies := by
    rw [List.filter_eq_self]
    intro name hname
    exact decide_eq_true (h.dependencies name hname).ne_empty
  have hdropped : record.dependencies.filter (· = "") = [] := by
    rw [List.filter_eq_nil_iff]
    intro name hname
    simpa using (h.dependencies name hname).ne_empty
  simp only [read, (Record.isTrimmed_text record).trim_eq, if_neg hne, Record.decode_text,
    h.key.isTrimmed.trim_eq, if_neg h.key.ne_empty, map_trim_eq h.dependencies, hkept, hdropped,
    List.length_nil]

/-- Whatever a line holds, the binding in it has proper names. -/
theorem isProper_of_read {line key : String} {dependencies : List String} {dropped : Nat}
    (h : read line = .binding key dependencies dropped) : Record.IsProper ⟨key, dependencies⟩ := by
  unfold read at h
  dsimp only at h
  split at h
  · cases h
  · split at h
    · cases h
    · split at h
      · cases h
      · rename_i hkey
        cases h
        refine ⟨⟨hkey, Text.isTrimmed_trim _⟩, ?_⟩
        intro name hname
        obtain ⟨hname, hne⟩ := List.mem_filter.mp hname
        obtain ⟨source, -, rfl⟩ := List.mem_map.mp hname
        exact ⟨of_decide_eq_true hne, Text.isTrimmed_trim source⟩

end RecordLine

/-! ## All lines -/

namespace Ledger

variable {ledger : Ledger}

/-- The keys of a ledger, in order. -/
def keys (ledger : Ledger) : List String := ledger.bindings.map Record.key

/-- Keys are distinct, and all names are such as a graph file can declare. -/
structure IsProper (ledger : Ledger) : Prop where
  keys_nodup : ledger.keys.Nodup
  isProper_of_mem : ∀ record ∈ ledger.bindings, record.IsProper

theorem hasKey_iff {key : String} :
    ledger.hasKey key = true ↔ key ∈ ledger.keys := by
  simp [hasKey, keys]

theorem keys_merge (bindings : List Record) (key : String) (dependencies : List String) :
    (merge bindings key dependencies).map Record.key = bindings.map Record.key := by
  rw [merge, List.map_map]
  apply List.map_congr_left
  intro record _
  show Record.key (if record.key = key then _ else _) = _
  split <;> rfl

theorem isProper_of_mem_merge {bindings : List Record} {key : String} {dependencies : List String}
    (h : ∀ record ∈ bindings, record.IsProper) (hnew : Record.IsProper ⟨key, dependencies⟩) :
    ∀ record ∈ merge bindings key dependencies, record.IsProper := by
  intro record hrecord
  obtain ⟨old, hold, rfl⟩ := List.mem_map.mp hrecord
  split
  · refine ⟨(h old hold).key, ?_⟩
    intro name hname
    rcases List.mem_append.mp hname with hname | hname
    · exact (h old hold).dependencies name hname
    · exact hnew.dependencies name hname
  · exact h old hold

theorem IsProper.accept (h : ledger.IsProper) (number : Nat) (line : String) :
    (ledger.accept number (.read line)).IsProper := by
  cases hread : RecordLine.read line with
  | blank => exact h
  | malformed error => exact ⟨h.keys_nodup, h.isProper_of_mem⟩
  | emptyKey => exact ⟨h.keys_nodup, h.isProper_of_mem⟩
  | binding key dependencies dropped =>
    have hnew := RecordLine.isProper_of_read hread
    by_cases hkey : ledger.hasKey key = true
    · simp only [Ledger.accept, if_pos hkey]
      refine ⟨?_, isProper_of_mem_merge h.isProper_of_mem hnew⟩
      show ((merge _ _ _).map Record.key).Nodup
      rw [keys_merge]
      exact h.keys_nodup
    · simp only [Ledger.accept, if_neg hkey]
      rw [hasKey_iff] at hkey
      refine ⟨?_, ?_⟩
      · show ((ledger.bindings ++ [_]).map Record.key).Nodup
        rw [List.map_append]
        refine List.nodup_append.mpr ⟨h.keys_nodup, by simp, ?_⟩
        rintro other hother _ hmem rfl
        rw [List.mem_singleton.mp hmem] at hother
        exact hkey hother
      · intro record hrecord
        rcases List.mem_append.mp hrecord with hrecord | hrecord
        · exact h.isProper_of_mem record hrecord
        · exact List.mem_singleton.mp hrecord ▸ hnew

theorem IsProper.acceptAll (h : ledger.IsProper) (number : Nat) (lines : List String) :
    (ledger.acceptAll number lines).IsProper := by
  induction lines generalizing ledger number with
  | nil => exact h
  | cons line lines ih => exact ih (h.accept number line) (number + 1)

/-- Whatever the lines hold, keys stay distinct and names proper. -/
theorem isProper_ofLines (lines : List String) : (ofLines lines).IsProper :=
  IsProper.acceptAll ⟨by simp [keys], by simp⟩ 1 lines

/-! ## Written records -/

theorem acceptAll_texts {records : List Record} (number : Nat)
    (hkeys : ((ledger.bindings ++ records).map Record.key).Nodup)
    (h : ∀ record ∈ records, record.IsProper) :
    ledger.acceptAll number (records.map Record.text) =
      { ledger with bindings := ledger.bindings ++ records } := by
  induction records generalizing ledger number with
  | nil => rw [List.append_nil]; rfl
  | cons record records ih =>
    -- The key is new, so the record goes to the end of the bindings.
    have hnew : ¬ ledger.hasKey record.key = true := by
      rw [hasKey_iff]
      intro hmem
      rw [List.map_append, List.map_cons] at hkeys
      exact (List.nodup_append.mp hkeys).2.2 _ hmem _ List.mem_cons_self rfl
    have haccept : ledger.accept number (.read record.text) =
        { ledger with bindings := ledger.bindings ++ [record] } := by
      rw [RecordLine.read_text (h record List.mem_cons_self)]
      simp [accept, if_neg hnew]
    rw [List.map_cons, Ledger.acceptAll, haccept, ih]
    · simp
    · simpa using hkeys
    · intro other hother
      exact h other (List.mem_cons_of_mem _ hother)

/-- Records written one to a line come back, and nothing else does. -/
theorem ofLines_texts {records : List Record} (hkeys : (records.map Record.key).Nodup)
    (h : ∀ record ∈ records, record.IsProper) :
    ofLines (records.map Record.text) = ⟨records, []⟩ :=
  acceptAll_texts 1 hkeys h

end Ledger

end BindingGraph
