import BindingGraph.Proofs.Engine.Failures
import BindingGraph.Proofs.Search.Bounds
import BindingGraph.Proofs.Text.Separated
import BindingGraph.Report.Style

/-!
# Paths told from their texts

The text of a path is read back by cutting it at the leftmost arrows (`Path.ofText_eq_iff`). This
gives the names of the path if and only if no arrow is in a name and none begins in a name before
the arrow that follows it (`Path.ofText_text_iff`); an arrow can only do so with its last character,
as no other end of it is a beginning of it as well. Between such names no two paths have the same
text, so no line of an answer is repeated (`Path.nodes_of_text`).
-/

namespace BindingGraph

namespace Path

open Text (LeftmostCut splitChars)

variable {nodes : List String} {line name : String}

/-! ## Names and arrows -/

/-- There is an arrow in the name. -/
def HoldsArrow (name : String) : Prop := arrow.toList <:+: name.toList

/-- The name ends in an arrow but for its last character, which the next arrow would lend. -/
def BeginsArrow (name : String) : Prop := " ->".toList <:+ name.toList

instance (name : String) : Decidable (HoldsArrow name) :=
  inferInstanceAs (Decidable (arrow.toList <:+: name.toList))

instance (name : String) : Decidable (BeginsArrow name) :=
  inferInstanceAs (Decidable (" ->".toList <:+ name.toList))

/-- Before the last character of the arrow behind a name there is an arrow if the name holds one, or
if one begins in it. -/
theorem arrow_infix_append_iff :
    arrow.toList <:+: name.toList ++ arrow.toList.dropLast ↔
      HoldsArrow name ∨ BeginsArrow name := by
  constructor
  · rintro ⟨before, behind, heq⟩
    rcases List.append_eq_append_iff.mp heq with ⟨rest, hname, -⟩ | ⟨excess, harrow, htail⟩
    · exact .inl ⟨before, rest, hname.symm⟩
    · -- The arrow ends in the first characters of the next one; both end alike only at a space.
      match excess, htail with
      | [], _ => exact .inl ⟨before, [], by rw [List.append_nil, harrow, List.append_nil]⟩
      | [c], htail =>
        obtain rfl : c = ' ' := (List.cons.inj htail).1.symm
        have hends : before ++ " ->".toList ++ [' '] = name.toList ++ [' '] := by
          rw [List.append_assoc]
          exact harrow
        exact .inr ⟨before, List.append_cancel_right hends⟩
      | [_, c], htail =>
        have hlast := congrArg List.getLast? harrow
        obtain rfl : c = '-' := (List.cons.inj (List.cons.inj htail).2).1.symm
        simp [arrow] at hlast
      | [_, _, c], htail =>
        have hlast := congrArg List.getLast? harrow
        obtain rfl : c = '>' := (List.cons.inj (List.cons.inj (List.cons.inj htail).2).2).1.symm
        simp [arrow] at hlast
      | _ :: _ :: _ :: _ :: _, htail => simp [arrow] at htail
  · rintro (⟨before, behind, hname⟩ | ⟨before, hname⟩)
    · exact ⟨before, behind ++ arrow.toList.dropLast, by rw [← hname, ← List.append_assoc]⟩
    · exact ⟨before, ['-', '>'], by rw [← hname]; simp [arrow]⟩

/-! ## Reading -/

/-- A line is read by cutting it at its leftmost arrows. -/
theorem ofText_eq_iff :
    ofText line = ⟨nodes⟩ ↔ LeftmostCut arrow.toList line.toList (nodes.map String.toList) := by
  have hlists (lists : List (List Char)) :
      lists.map String.ofList = nodes ↔ lists = nodes.map String.toList := by
    constructor
    · rintro rfl
      simp [Function.comp_def]
    · rintro rfl
      simp [Function.comp_def]
  rw [← Text.splitChars_eq_iff (by decide), ← hlists, ofText, Text.splitOn, Path.mk.injEq]

/-- The names can be read from the line that shows them. Nothing follows the last of them, so an
arrow may begin in it. -/
structure IsReadable (nodes : List String) : Prop where
  ne_nil : nodes ≠ []
  not_holdsArrow : ∀ name ∈ nodes, ¬ HoldsArrow name
  not_beginsArrow : ∀ name ∈ nodes.dropLast, ¬ BeginsArrow name

instance (nodes : List String) : Decidable (IsReadable nodes) :=
  decidable_of_iff
    (nodes ≠ [] ∧ (∀ name ∈ nodes, ¬ HoldsArrow name) ∧ ∀ name ∈ nodes.dropLast, ¬ BeginsArrow name)
    ⟨fun ⟨hne, hholds, hbegins⟩ => ⟨hne, hholds, hbegins⟩,
      fun ⟨hne, hholds, hbegins⟩ => ⟨hne, hholds, hbegins⟩⟩

theorem isReadable_concat_iff {front : List String} {last : String} :
    IsReadable (front ++ [last]) ↔
      (∀ name ∈ front, ¬ HoldsArrow name ∧ ¬ BeginsArrow name) ∧ ¬ HoldsArrow last := by
  constructor
  · rintro ⟨-, hholds, hbegins⟩
    rw [List.dropLast_concat] at hbegins
    refine ⟨?_, hholds last (List.mem_append_right _ (List.mem_singleton.mpr rfl))⟩
    intro name hname
    exact ⟨hholds name (List.mem_append_left _ hname), hbegins name hname⟩
  · rintro ⟨hfront, hlast⟩
    refine ⟨by simp, ?_, ?_⟩
    · intro name hname
      rcases List.mem_append.mp hname with hname | hname
      · exact (hfront name hname).1
      · rwa [List.mem_singleton.mp hname]
    · intro name hname
      rw [List.dropLast_concat] at hname
      exact (hfront name hname).2

/-- What is shown is read back if and only if it can be. -/
theorem ofText_text_iff : ofText (text ⟨nodes⟩) = ⟨nodes⟩ ↔ IsReadable nodes := by
  have hjoined : (text ⟨nodes⟩).toList = arrow.toList.intercalate (nodes.map String.toList) := by
    rw [text, String.toList_intercalate]
  rw [ofText_eq_iff, hjoined, ← Text.splitChars_eq_iff (by decide),
    Text.splitChars_intercalate_iff (by decide)]
  rcases List.eq_nil_or_concat nodes with rfl | ⟨front, last, rfl⟩
  · exact ⟨fun h => absurd rfl h.1, fun h => absurd rfl h.ne_nil⟩
  · rw [List.concat_eq_append, isReadable_concat_iff, List.map_append, List.map_singleton,
      List.getLast?_concat, List.dropLast_concat]
    simp only [List.forall_mem_map, arrow_infix_append_iff, not_or]
    constructor
    · rintro ⟨-, hlast, hfront⟩
      exact ⟨hfront, hlast _ rfl⟩
    · rintro ⟨hfront, hlast⟩
      refine ⟨by simp, ?_, hfront⟩
      rintro _ ⟨⟩
      exact hlast

/-- Different paths that can be read from their texts have different texts. -/
theorem IsReadable.eq_of_text_eq {others : List String} (h : IsReadable nodes)
    (h' : IsReadable others) (heq : text ⟨nodes⟩ = text ⟨others⟩) : nodes = others := by
  have hread : (⟨nodes⟩ : Path) = ⟨others⟩ := by
    rw [← ofText_text_iff.mpr h, heq, ofText_text_iff.mpr h']
  exact Path.mk.inj hread

end Path

/-! ## Lines of an answer -/

theorem DependencyGraph.mem_names_view_iff {graph : DependencyGraph} {name : String} :
    name ∈ graph.view.names ↔ name ∈ graph.nodes := by
  rw [← graph.eraseDups_names, List.mem_eraseDups]

/-- The paths between two nodes of a dependency graph lead through nodes only. -/
theorem DependencyGraph.subset_nodes_of_mem_pathsFrom {graph : DependencyGraph}
    {source target : String} {nodes : List String} (hsource : source ∈ graph.nodes)
    (h : nodes ∈ graph.view.pathsFrom target [] source) : nodes ≠ [] ∧ nodes ⊆ graph.nodes := by
  obtain ⟨hhead, -, hwalk, -⟩ := Graph.mem_pathsFrom_nil_iff.mp h
  constructor
  · rintro rfl
    cases hhead
  · intro name hname
    refine mem_names_view_iff.mp (hwalk.subset_names ?_ hname)
    intro first hfirst
    rw [hhead, Option.mem_some_iff] at hfirst
    exact mem_names_view_iff.mpr (hfirst ▸ hsource)

/-- **Paths are told from their texts.** A line is read by cutting it at its leftmost arrows that do
not overlap. From the line that shows them the names of a path are read back if and only if there
are any, none holds an arrow and none but the last ends in one up to its last character; they are
then painted one by one. So over a dependency graph without such names the lines that answer a query
for all paths are different from each other, under every deadline. -/
theorem Path.nodes_of_text :
    (∀ line nodes, ofText line = ⟨nodes⟩ ↔
      Text.LeftmostCut arrow.toList line.toList (nodes.map String.toList)) ∧
    (∀ nodes, ofText (text ⟨nodes⟩) = ⟨nodes⟩ ↔ IsReadable nodes) ∧
    (∀ (palette : Report.Palette) nodes, palette.isOn = true → IsReadable nodes →
      palette.paintPath (text ⟨nodes⟩) =
        (palette.paint .dimmed arrow).intercalate (nodes.map (palette.paint .binding))) ∧
    ∀ (graph : DependencyGraph) (e : Engine), e.graph = graph.view →
      (∀ name ∈ graph.nodes, ¬ HoldsArrow name ∧ ¬ BeginsArrow name) →
      ∀ source target results, e.execute (.allPaths source target) = .ok results →
        results.Nodup := by
  refine ⟨fun _ _ => ofText_eq_iff, fun _ => ofText_text_iff, ?_, ?_⟩
  · intro palette nodes hon hnodes
    rw [Report.Palette.paintPath_of_on hon, ofText_text_iff.mpr hnodes]
  · intro graph e hgraph hnames source target results hresults
    have houtcome := e.outcome_execute (.allPaths source target)
    rw [hresults] at houtcome
    cases houtcome with
    | answered hends _ =>
      have hsource : source ∈ graph.nodes := by
        have hmem := hends source List.mem_cons_self
        rwa [hgraph] at hmem
      have hreadable (nodes : List String) (h : nodes ∈ graph.view.pathsFrom target [] source) :
          IsReadable nodes := by
        obtain ⟨hne, hsubset⟩ := graph.subset_nodes_of_mem_pathsFrom hsource h
        exact ⟨hne, fun name hname => (hnames name (hsubset hname)).1,
          fun name hname => (hnames name (hsubset (List.mem_of_mem_dropLast hname))).2⟩
      have hnodup : (graph.view.pathsFrom target [] source).Nodup :=
        Graph.nodup_pathsFrom graph.nodup_dependencies
      rw [hgraph, Graph.answer, List.map_map]
      refine hnodup.map_on ?_
      intro nodes hmem others hmem' heq
      exact (hreadable nodes hmem).eq_of_text_eq (hreadable others hmem') heq

/-- Names that are half an arrow, or empty, are told apart all the same. -/
theorem Path.nodes_of_text_halfArrows :
    let graph : DependencyGraph :=
      .ofDeclarations [.binding "->" ["", "-> b"], .dependency "" "- ",
        .binding "- " ["->", "-> b"]]
    let e : Engine := { graph := graph.view }
    let lines := ["-> ->  -> -  -> -> b", "-> -> -> b"]
    e.execute (.allPaths "->" "-> b") = .ok lines ∧ lines.Nodup ∧
      lines.map ofText = [⟨["->", "", "- ", "-> b"]⟩, ⟨["->", "-> b"]⟩] ∧
      ofText (text ⟨["a ->", "b"]⟩) ≠ ⟨["a ->", "b"]⟩ := by
  intro graph e lines
  obtain ⟨-, hread, -, hdistinct⟩ := nodes_of_text
  have hlines : e.execute (.allPaths "->" "-> b") = .ok lines := by decide +kernel
  have hnames : ∀ name ∈ graph.nodes, ¬ HoldsArrow name ∧ ¬ BeginsArrow name := by decide +kernel
  have hlong : ofText (text ⟨["->", "", "- ", "-> b"]⟩) = ⟨["->", "", "- ", "-> b"]⟩ :=
    (hread _).mpr (by decide)
  have hshort : ofText (text ⟨["->", "-> b"]⟩) = ⟨["->", "-> b"]⟩ := (hread _).mpr (by decide)
  refine ⟨hlines, hdistinct graph e rfl hnames _ _ _ hlines, ?_, ?_⟩
  · exact congrArg₂ (fun long short => [long, short]) hlong hshort
  · rw [Ne, hread]
    decide

end BindingGraph
