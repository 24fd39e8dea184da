import BindingGraph.Proofs.Text.Utf8
import BindingGraph.Proofs.Workspace.ConfigurationText
import BindingGraph.Proofs.Workspace.Loading

/-!
# Saving a configuration and loading it again

A configuration is saved wherever a file may be written (`saveConfiguration_ok_iff`), and what is
then loaded from there is the configuration, whatever text says where its graphs are and whichever
of its limits are set (`saveConfiguration_loadConfiguration`).
-/

namespace BindingGraph.Workspace

variable {files saved : FileTree} {path : FilePath} {configuration : Configuration}

/-- A file may be written at the path: it ends in a name that is short enough, in a directory, and
no directory has the name. -/
def IsWritable (files : FileTree) (path : FilePath) : Prop :=
  ∃ parent name, files.locateParent path = .ok (parent, .name name false) ∧
    ¬ FileTree.maxNameBytes < name.utf8ByteSize ∧ files.get? (parent ++ [name]) ≠ some .directory

theorem saveConfiguration_ok_iff :
    (∃ saved, (saveConfiguration path configuration).run files = (.ok (), saved)) ↔
      IsWritable files path := by
  constructor
  · rintro ⟨saved, hsave⟩
    obtain ⟨parent, name, hpath, hshort, hfree, -⟩ :=
      FileAction.write_ok (Action.run_onFiles_eq_ok_iff.mp hsave)
    exact ⟨parent, name, hpath, hshort, hfree⟩
  · rintro ⟨parent, name, hpath, hshort, hfree⟩
    exact ⟨_, Action.run_onFiles_eq_ok_iff.mpr (FileAction.write_run hpath hshort _ hfree)⟩

theorem entryAt_of_saveConfiguration
    (h : (saveConfiguration path configuration).run files = (.ok (), saved)) :
    saved.entryAt path = .ok (.file (Text.encodeUtf8 configuration.text)) := by
  obtain ⟨parent, name, hpath, hshort, hfree, rfl⟩ :=
    FileAction.write_ok (Action.run_onFiles_eq_ok_iff.mp h)
  have hpath' :=
    (FileTree.keeps_put_file hfree (Text.encodeUtf8 configuration.text)).locateParent_eq hpath
  exact FileTree.entryAt_of_locateParent hpath' hshort (FileTree.get?_put_child parent name _)

/-- What the text of a configuration is read as is what the configuration is, and so is what its
file is loaded as. -/
theorem saveConfiguration_loadConfiguration (configuration : Configuration)
    (h : configuration.FitsWords) :
    Configuration.ofText configuration.text = .ok configuration ∧
      (∀ files path, IsWritable files path →
        ∃ saved, (saveConfiguration path configuration).run files = (.ok (), saved)) ∧
      ∀ files path saved, (saveConfiguration path configuration).run files = (.ok (), saved) →
        (loadConfiguration path).run saved = (.ok configuration, saved) := by
  have htext := Configuration.ofText_text h
  refine ⟨htext, fun _ _ => saveConfiguration_ok_iff.mpr, ?_⟩
  intro files path saved hsave
  exact loadConfiguration_run (FileAction.read_run (entryAt_of_saveConfiguration hsave))
    (Text.decodeUtf8_encodeUtf8 configuration.text) htext

/-- A text that looks like a list of quoted keys, with line breaks, tabs and spaces where none may
stand, and numbers as large as they can be. -/
def awkwardConfiguration : Configuration :=
  { graphs := " - 'a': \"b\" # c\\\u2028\n\t\n  "
    engine :=
      { maxEditDistance := 2 ^ 64 - 1, maxSuggestions := some 0,
        timeoutMillis := some (2 ^ 64 - 1) } }

theorem saveConfiguration_loadConfiguration_awkward :
    awkwardConfiguration.FitsWords ∧ IsWritable {} (.ofText "config.yaml") ∧
      Configuration.ofText awkwardConfiguration.text = .ok awkwardConfiguration ∧
      ∃ saved,
        (saveConfiguration (.ofText "config.yaml") awkwardConfiguration).run {} = (.ok (), saved) ∧
        (loadConfiguration (.ofText "config.yaml")).run saved =
          (.ok awkwardConfiguration, saved) := by
  have hfits : awkwardConfiguration.FitsWords := by
    refine ⟨by decide, ?_, ?_⟩
    · rintro n ⟨⟩
      decide
    · rintro n ⟨⟩
      decide
  have hparent : FileTree.locateParent {} (.ofText "config.yaml") =
      .ok ([], .name "config.yaml" false) :=
    FileTree.locateParent_eq_name_iff.mpr
      ⟨[], ["config.yaml"], [], FileTree.origin_fileName (by decide), by decide, rfl, rfl,
        by decide, by decide⟩
  have hwritable : IsWritable {} (.ofText "config.yaml") :=
    ⟨[], "config.yaml", hparent, by decide, by decide⟩
  obtain ⟨htext, hsave, hload⟩ := saveConfiguration_loadConfiguration awkwardConfiguration hfits
  obtain ⟨saved, hsaved⟩ := hsave {} (.ofText "config.yaml") hwritable
  exact ⟨hfits, hwritable, htext, saved, hsaved, hload _ _ _ hsaved⟩

end BindingGraph.Workspace
