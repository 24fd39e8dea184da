import BindingGraph.Proofs.Files.FileNames

/-!
# Extensions

A file name has an extension exactly if something stands before its last dot
(`FilePath.splitName_eq_some_iff`). A path that ends in a file name leads to the same directory when
it is given another extension: only the last part changes (`FilePath.exists_withExtension_eq`).
-/

namespace BindingGraph.FilePath

variable {path : FilePath} {front : List String} {name stem extension : String}

/-! ## Names with an extension -/

/-- The last dot of a name that has one cuts it, unless it stands at the very front. -/
theorem splitName_append (hstem : stem ≠ "") (hextension : '.' ∉ extension.toList) :
    splitName (stem ++ "." ++ extension) = (stem, some extension) := by
  have hreverse : (stem ++ "." ++ extension).toList.reverse =
      extension.toList.reverse ++ '.' :: stem.toList.reverse := by
    simp
  have hback : ∀ c ∈ extension.toList.reverse, (c != '.') = true := by
    intro c hc
    rw [bne_iff_ne]
    rintro rfl
    exact hextension (List.mem_reverse.mp hc)
  obtain ⟨last, rest, hlast⟩ := List.exists_cons_of_ne_nil
    (show stem.toList.reverse ≠ [] by simpa using hstem)
  rw [splitName, List.span_eq_takeWhile_dropWhile, hreverse, List.takeWhile_append_of_pos hback,
    List.dropWhile_append_of_pos hback, List.takeWhile_cons_of_neg (by simp),
    List.dropWhile_cons_of_neg (by simp), hlast]
  dsimp only
  rw [← hlast]
  simp

theorem splitName_eq_some_iff :
    splitName name = (stem, some extension) ↔
      stem ≠ "" ∧ '.' ∉ extension.toList ∧ name = stem ++ "." ++ extension := by
  constructor
  · intro h
    rcases splitName_cases name with ⟨hsplit, -⟩ | ⟨_, _, hsplit, hextension, hstem, hname⟩
    · rw [h] at hsplit
      cases hsplit
    · rw [h] at hsplit
      cases hsplit
      exact ⟨hstem, hextension, hname⟩
  · rintro ⟨hstem, hextension, rfl⟩
    exact splitName_append hstem hextension

/-! ## Paths with another extension -/

theorem start_append_body (h : path.parts.getLast? = some name) (hname : ¬ isTrivial name = true) :
    path.start ++ path.body = path.parts := by
  rw [(body_of_getLast? h hname).1]
  unfold start
  split <;> simp_all

theorem ofBody_concat {start body : List String} (h : start ++ body = front ++ [name])
    (hname : name ≠ "") :
    ofBody start body = ⟨front ++ [name]⟩ := by
  rw [ofBody, h]
  split
  · rename_i hnil
    simp at hnil
  · rename_i hempty
    have hlast : (front ++ [name]).getLast? = some "" := by rw [hempty]; rfl
    rw [List.getLast?_concat, Option.some_inj] at hlast
    exact absurd hlast hname
  · rfl

/-- The last part of a path in place of another one. -/
theorem ofBody_dropLast (hname : ¬ isTrivial name = true) {other : String} (hother : other ≠ "") :
    ofBody (start ⟨front ++ [name]⟩) ((body ⟨front ++ [name]⟩).dropLast ++ [other]) =
      ⟨front ++ [other]⟩ := by
  have hlast : (FilePath.mk (front ++ [name])).parts.getLast? = some name := List.getLast?_concat
  have hbody : body ⟨front ++ [name]⟩ ≠ [] := by
    intro hnil
    have hlastBody := (body_of_getLast? hlast hname).2
    rw [hnil] at hlastBody
    cases hlastBody
  apply ofBody_concat _ hother
  rw [← List.append_assoc, ← List.dropLast_append_of_ne_nil hbody, start_append_body hlast hname]
  rw [List.dropLast_concat]

theorem exists_upToExtension_eq (front : List String) (hname : ¬ isTrivial name = true)
    (hback : name ≠ "..") :
    ∃ other, ¬ isTrivial other = true ∧ upToExtension ⟨front ++ [name]⟩ = ⟨front ++ [other]⟩ := by
  have hlast : (FilePath.mk (front ++ [name])).parts.getLast? = some name := List.getLast?_concat
  have hfileName := fileName?_of_getLast? hlast hname hback
  rw [upToExtension, hfileName, Option.map_some]
  rcases splitName_cases name with ⟨hsplit, -⟩ | ⟨stem, extension, hsplit, -, hstem, -⟩
  · rw [hsplit]
    exact ⟨name, hname, rfl⟩
  · rw [hsplit]
    dsimp only
    rw [if_pos hlast, List.dropLast_concat]
    refine ⟨stem ++ ".", ?_, rfl⟩
    simp [isTrivial, hstem]

/-- A path that ends in a file name is the same but for its last part with another extension. -/
theorem exists_withExtension_eq (front : List String) (hname : ¬ isTrivial name = true)
    (hback : name ≠ "..") (extension : String) :
    ∃ other, withExtension ⟨front ++ [name]⟩ extension = ⟨front ++ [other]⟩ := by
  obtain ⟨upTo, htrivial, hupTo⟩ := exists_upToExtension_eq front hname hback
  rw [withExtension, hupTo]
  split
  · exact ⟨_, ofBody_dropLast htrivial (by simp)⟩
  · exact ⟨upTo, rfl⟩

theorem withExtension_of_parts_eq_nil (h : path.parts = []) (extension : String) :
    path.withExtension extension = path := by
  cases path
  cases h
  rfl

theorem withExtension_parts_ne_nil (h : path.parts ≠ []) (extension : String) :
    (path.withExtension extension).parts ≠ [] := by
  have hupTo : path.upToExtension.parts ≠ [] := by
    unfold upToExtension
    split
    · split_ifs
      · simp
      · exact h
    · exact h
  unfold withExtension
  dsimp only
  split
  · unfold ofBody
    split <;> simp_all
  · exact hupTo

end BindingGraph.FilePath
