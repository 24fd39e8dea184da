import BindingGraph.Proofs.Record.Accepted
import Mathlib.Data.List.Perm.Basic

/-!
# The order of the lines of a graph file

Lines in another order declare the same nodes and the same edges and raise the same warnings, each
with the number of another line (`LoadedGraph.ofLines_any_order`). Which line of a repeated key
comes first, and which one is warned of, does change, so warnings are counted together with the
keys: every binding either brings a key or repeats one, and what a line adds to the count does not
depend on the lines before it (`Ledger.perm_account_accept`).
-/

namespace BindingGraph

/-! ## Warnings without their lines -/

namespace LoadWarning

/-- What a warning says, apart from the number of its line. -/
inductive Reason where
  | malformed (error : String)
  | emptyKey
  | emptyDependency (key : String)
  | duplicateBinding (key : String)
  deriving DecidableEq

/-- The reason of a warning. -/
def reason : LoadWarning → Reason
  | .malformed _ error => .malformed error
  | .emptyKey _ => .emptyKey
  | .emptyDependency key _ => .emptyDependency key
  | .duplicateBinding key _ => .duplicateBinding key

/-- The four kinds of warnings. -/
inductive Kind where
  | malformed
  | emptyKey
  | emptyDependency
  | duplicateBinding
  deriving DecidableEq

/-- The kind of a reason. -/
def Reason.kind : Reason → Kind
  | .malformed _ => .malformed
  | .emptyKey => .emptyKey
  | .emptyDependency _ => .emptyDependency
  | .duplicateBinding _ => .duplicateBinding

end LoadWarning

open LoadWarning (Reason)

/-- What a line is warned of if its key has occurred before. -/
def RecordLine.reasons : RecordLine → List Reason
  | .blank => []
  | .malformed error => [.malformed error]
  | .emptyKey => [.emptyKey]
  | .binding key _ dropped =>
    List.replicate dropped (.emptyDependency key) ++ [.duplicateBinding key]

namespace Ledger

variable {ledger : Ledger}

/-- The reasons of all warnings, with one more for each key: that of the binding which
brought it. -/
def account (ledger : Ledger) : List Reason :=
  ledger.warnings.map LoadWarning.reason ++ ledger.keys.map .duplicateBinding

/-- Whatever has been declared before, a line adds its reasons to the account. -/
theorem perm_account_accept (ledger : Ledger) (number : Nat) (line : RecordLine) :
    (ledger.accept number line).account.Perm (ledger.account ++ line.reasons) := by
  rw [List.perm_iff_count]
  intro reason
  cases line with
  | blank => simp [accept, RecordLine.reasons]
  | malformed error =>
    simp only [accept, account, keys, RecordLine.reasons, List.map_append, List.count_append,
      List.map_cons, List.map_nil, LoadWarning.reason]
    omega
  | emptyKey =>
    simp only [accept, account, keys, RecordLine.reasons, List.map_append, List.count_append,
      List.map_cons, List.map_nil, LoadWarning.reason]
    omega
  | binding key dependencies dropped =>
    by_cases hkey : ledger.hasKey key = true
    · -- The binding repeats a key, so it is warned of and the keys stay.
      simp only [accept, if_pos hkey, account, keys, keys_merge, RecordLine.reasons,
        List.map_append, List.count_append, List.map_replicate, List.map_cons, List.map_nil,
        LoadWarning.reason]
      omega
    · -- The binding brings the key.
      simp only [accept, if_neg hkey, account, keys, RecordLine.reasons, List.map_append,
        List.count_append, List.map_replicate, List.map_cons, List.map_nil, LoadWarning.reason]
      omega

theorem perm_account_acceptAll (ledger : Ledger) (number : Nat) (lines : List String) :
    (ledger.acceptAll number lines).account.Perm
      (ledger.account ++ lines.flatMap fun line => (RecordLine.read line).reasons) := by
  induction lines generalizing ledger number with
  | nil => rw [List.flatMap_nil, List.append_nil]; exact .refl _
  | cons line lines ih =>
    rw [acceptAll, List.flatMap_cons, ← List.append_assoc]
    exact (ih _ _).trans ((ledger.perm_account_accept number (.read line)).append_right _)

theorem perm_account_ofLines (lines : List String) :
    (ofLines lines).account.Perm (lines.flatMap fun line => (RecordLine.read line).reasons) :=
  perm_account_acceptAll {} 1 lines

end Ledger

open Record

/-! ## The same declarations -/

namespace LoadedGraph

variable {lines others : List String}

theorem mem_nodes_ofLines_iff {name : String} :
    name ∈ (ofLines lines).graph.nodes ↔
      ∃ record ∈ accepted lines, name = record.key ∨ name ∈ record.dependencies := by
  show name ∈ (Ledger.ofLines lines).graph.nodes ↔ _
  rw [Ledger.mem_nodes_graph_iff, Ledger.bindings_ofLines, joined]
  constructor
  · rintro ⟨_, hmem, hname⟩
    obtain ⟨key, hkey, rfl⟩ := List.mem_map.mp hmem
    rcases hname with rfl | hname
    · obtain ⟨record, hrecord, rfl⟩ := mem_distinctKeys_iff.mp hkey
      exact ⟨record, hrecord, .inl rfl⟩
    · obtain ⟨record, hrecord, -, hdependency⟩ := mem_dependenciesOf_iff.mp hname
      exact ⟨record, hrecord, .inr hdependency⟩
  · rintro ⟨record, hrecord, hname⟩
    have hkey : record.key ∈ distinctKeys (accepted lines) :=
      mem_distinctKeys_iff.mpr ⟨record, hrecord, rfl⟩
    refine ⟨_, List.mem_map_of_mem hkey, ?_⟩
    rcases hname with rfl | hname
    · exact .inl rfl
    · exact .inr (mem_dependenciesOf_iff.mpr ⟨record, hrecord, rfl, hname⟩)

theorem perm_nodes (h : lines.Perm others) :
    (ofLines lines).graph.nodes.Perm (ofLines others).graph.nodes := by
  rw [List.perm_ext_iff_of_nodup (DependencyGraph.nodes_nodup _) (DependencyGraph.nodes_nodup _)]
  intro name
  simp only [mem_nodes_ofLines_iff, accepted, (h.filterMap ofLine?).mem_iff]

theorem perm_dependencies (h : lines.Perm others) (name : String) :
    ((ofLines lines).graph.dependencies name).Perm ((ofLines others).graph.dependencies name) := by
  rw [List.perm_ext_iff_of_nodup (DependencyGraph.nodup_dependencies _ _)
    (DependencyGraph.nodup_dependencies _ _)]
  intro dependency
  simp only [dependencies_ofLines, List.mem_eraseDups, mem_dependenciesOf_iff, accepted,
    (h.filterMap ofLine?).mem_iff]

theorem perm_edges (h : lines.Perm others) :
    (ofLines lines).graph.edges.Perm (ofLines others).graph.edges := by
  rw [List.perm_ext_iff_of_nodup (DependencyGraph.edges_nodup _) (DependencyGraph.edges_nodup _)]
  rintro ⟨name, dependency⟩
  rw [← DependencyGraph.mem_dependencies_iff, ← DependencyGraph.mem_dependencies_iff,
    (perm_dependencies h name).mem_iff]

/-! ## The same warnings -/

theorem perm_keys (h : lines.Perm others) :
    (Ledger.ofLines lines).keys.Perm (Ledger.ofLines others).keys := by
  rw [List.perm_ext_iff_of_nodup (Ledger.isProper_ofLines lines).keys_nodup
    (Ledger.isProper_ofLines others).keys_nodup]
  intro key
  simp only [Ledger.keys_ofLines, mem_distinctKeys_iff, accepted, (h.filterMap ofLine?).mem_iff]

theorem perm_reasons (h : lines.Perm others) :
    ((ofLines lines).warnings.map LoadWarning.reason).Perm
      ((ofLines others).warnings.map LoadWarning.reason) := by
  have haccount : (Ledger.ofLines lines).account.Perm (Ledger.ofLines others).account :=
    ((Ledger.perm_account_ofLines lines).trans (h.flatMap_right _)).trans
      (Ledger.perm_account_ofLines others).symm
  have hkeys : ((Ledger.ofLines lines).keys.map Reason.duplicateBinding).Perm
      ((Ledger.ofLines others).keys.map Reason.duplicateBinding) := (perm_keys h).map _
  -- Both have the same keys, so what is left of the accounts are the warnings.
  exact (List.perm_append_right_iff _).mp (haccount.trans (hkeys.symm.append_left _))

theorem countP_reason (h : lines.Perm others) (p : Reason → Bool) :
    (ofLines lines).warnings.countP (p ·.reason) =
      (ofLines others).warnings.countP (p ·.reason) := by
  have hcount := (perm_reasons h).countP_eq p
  rwa [List.countP_map, List.countP_map] at hcount

/-- **The order of lines.** Lines in another order declare the same nodes, the same dependencies of
every name and as many edges, and they raise as many warnings of each kind and, of those about a
key, for each key; all warnings are the same up to their order and the numbers of their lines. -/
theorem ofLines_any_order (lines others : List String) (h : lines.Perm others) :
    let loaded := ofLines lines
    let loaded' := ofLines others
    loaded.graph.nodes.Perm loaded'.graph.nodes ∧
    (∀ name, (loaded.graph.dependencies name).Perm (loaded'.graph.dependencies name)) ∧
    loaded.graph.edgeCount = loaded'.graph.edgeCount ∧
    (∀ kind : LoadWarning.Kind, loaded.warnings.countP (·.reason.kind = kind) =
      loaded'.warnings.countP (·.reason.kind = kind)) ∧
    (∀ key, loaded.warnings.countP (·.reason = .emptyDependency key) =
      loaded'.warnings.countP (·.reason = .emptyDependency key)) ∧
    (∀ key, loaded.warnings.countP (·.reason = .duplicateBinding key) =
      loaded'.warnings.countP (·.reason = .duplicateBinding key)) ∧
    (loaded.warnings.map LoadWarning.reason).Perm (loaded'.warnings.map LoadWarning.reason) := by
  intro loaded loaded'
  refine ⟨perm_nodes h, perm_dependencies h, (perm_edges h).length_eq, ?_, ?_, ?_, perm_reasons h⟩
  · intro kind
    exact countP_reason h (·.kind = kind)
  · intro key
    exact countP_reason h (· = .emptyDependency key)
  · intro key
    exact countP_reason h (· = .duplicateBinding key)

/-- A key that comes three times, once behind a line that is cut off: read from the end, another of
its lines is the first, another two are warned of, and nodes and dependencies change places. -/
theorem ofLines_any_order_damaged :
    let lines := ["[\"a\",[\"b\",\" \"]]", "[\"a\",", "[\"c\",[\"a\"]]", "[\" a\",[\"c\",\"b\"]]",
      "[\" \"]", "[\"a\"]"]
    lines.Perm lines.reverse ∧
    (ofLines lines).graph.bindings = [("a", ["b", "c"]), ("c", ["a"]), ("b", [])] ∧
    (ofLines lines.reverse).graph.bindings = [("a", ["c", "b"]), ("c", ["a"]), ("b", [])] ∧
    (ofLines lines).warnings.map LoadWarning.line = [1, 2, 4, 5, 6] ∧
    (ofLines lines.reverse).warnings.map LoadWarning.line = [2, 3, 5, 6, 6] ∧
    (ofLines lines).warnings.countP (·.reason = .duplicateBinding "a") =
      (ofLines lines.reverse).warnings.countP (·.reason = .duplicateBinding "a") := by
  intro lines
  have hperm : lines.Perm lines.reverse := (List.reverse_perm lines).symm
  obtain ⟨-, -, -, -, -, hduplicates, -⟩ := ofLines_any_order lines lines.reverse hperm
  exact ⟨hperm, by decide +kernel, by decide +kernel, by decide +kernel, by decide +kernel,
    hduplicates "a"⟩

end LoadedGraph

end BindingGraph
