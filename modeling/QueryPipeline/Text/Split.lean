namespace QueryPipeline.Text

/-! Text cut at every occurrence of a separator.  There is always one part more than
there are separators, so no part of the text is lost. -/

def split (separator : Char) (text : String) : List String :=
  (text.toList.splitOn separator).map String.ofList

theorem split_ne_nil (separator : Char) (text : String) : split separator text ≠ [] := by
  simp [split]

theorem intercalate_split (separator : Char) (text : String) :
    (String.singleton separator).intercalate (split separator text) = text := by
  rw [← String.toList_inj, String.toList_intercalate, String.toList_singleton]
  simp [split, Function.comp_def, List.intercalate_splitOn]

theorem split_intercalate {separator : Char} {parts : List String} (hparts : parts ≠ [])
    (hfree : ∀ part ∈ parts, separator ∉ part.toList) :
    split separator ((String.singleton separator).intercalate parts) = parts := by
  rw [split, String.toList_intercalate, String.toList_singleton,
    List.splitOn_intercalate]
  · simp [Function.comp_def]
  · simpa using hfree
  · simpa using hparts

theorem notMem_of_mem_splitOn {separator : Char} {chars part : List Char}
    (h : part ∈ chars.splitOn separator) : separator ∉ part := by
  induction chars generalizing part with
  | nil => simp_all
  | cons first rest ih =>
      rw [List.splitOn_eq_splitOnP, List.splitOnP_cons_eq_if_modifyHead,
        ← List.splitOn_eq_splitOnP] at h
      split at h
      · rcases List.mem_cons.mp h with rfl | h
        · simp
        · exact ih h
      · rename_i hne
        cases hrest : rest.splitOn separator with
        | nil => simp at hrest
        | cons head others =>
            rw [hrest, List.modifyHead_cons] at h
            rcases List.mem_cons.mp h with rfl | h
            · have hhead : separator ∉ head := ih (by simp [hrest])
              have hfirst : separator ≠ first := fun heq => hne (by simp [heq])
              simp [hhead, hfirst]
            · exact ih (by simp [hrest, h])

theorem notMem_of_mem_split {separator : Char} {text part : String}
    (h : part ∈ split separator text) : separator ∉ part.toList := by
  obtain ⟨chars, hchars, rfl⟩ := List.mem_map.mp h
  rw [String.toList_ofList]
  exact notMem_of_mem_splitOn hchars

end QueryPipeline.Text
