namespace QueryPipeline

def insertSorted (item : String) : List String → List String
  | [] => [item]
  | known :: rest =>
      if item ≤ known then item :: known :: rest else known :: insertSorted item rest

def sorted (items : List String) : List String :=
  items.foldr insertSorted []

/-- As `insertSorted`, except that a known text is not repeated. -/
def insertUnique (item : String) : List String → List String
  | [] => [item]
  | known :: rest =>
      if item < known then item :: known :: rest
      else if item = known then known :: rest
      else known :: insertUnique item rest

theorem mem_insertSorted {item other : String} {items : List String} :
    other ∈ insertSorted item items ↔ other = item ∨ other ∈ items := by
  induction items with
  | nil => simp [insertSorted]
  | cons known rest ih =>
      unfold insertSorted
      split
      · simp
      · simp only [List.mem_cons, ih]
        grind

theorem mem_sorted {item : String} {items : List String} :
    item ∈ sorted items ↔ item ∈ items := by
  induction items with
  | nil => simp [sorted]
  | cons first rest ih =>
      rw [sorted, List.foldr_cons, mem_insertSorted, List.mem_cons]
      exact or_congr Iff.rfl ih

theorem mem_insertUnique {item other : String} {items : List String} :
    other ∈ insertUnique item items ↔ other = item ∨ other ∈ items := by
  induction items with
  | nil => simp [insertUnique]
  | cons known rest ih =>
      unfold insertUnique
      split
      · simp
      · split
        · rename_i heq
          simp [heq]
        · simp only [List.mem_cons, ih]
          grind

theorem pairwise_insertSorted (item : String) {items : List String}
    (h : items.Pairwise (· ≤ ·)) : (insertSorted item items).Pairwise (· ≤ ·) := by
  induction items with
  | nil => simp [insertSorted]
  | cons known rest ih =>
      rw [List.pairwise_cons] at h
      unfold insertSorted
      split
      · rename_i hle
        rw [List.pairwise_cons, List.pairwise_cons]
        refine ⟨?_, h⟩
        intro other hother
        rcases List.mem_cons.mp hother with rfl | hother
        · exact hle
        · exact Std.le_trans hle (h.1 other hother)
      · rename_i hle
        rw [List.pairwise_cons]
        refine ⟨?_, ih h.2⟩
        intro other hother
        rcases mem_insertSorted.mp hother with rfl | hother
        · exact Std.le_of_not_ge hle
        · exact h.1 other hother

theorem pairwise_sorted (items : List String) : (sorted items).Pairwise (· ≤ ·) := by
  induction items with
  | nil => exact .nil
  | cons first rest ih => exact pairwise_insertSorted first ih

theorem sorted_eq_self {items : List String} (h : items.Pairwise (· ≤ ·)) :
    sorted items = items := by
  induction items with
  | nil => rfl
  | cons first rest ih =>
      rw [List.pairwise_cons] at h
      rw [sorted, List.foldr_cons, ← sorted, ih h.2]
      cases rest with
      | nil => rfl
      | cons second rest => rw [insertSorted, if_pos (h.1 second (by simp))]

theorem nodup_of_ascending {items : List String} (h : items.Pairwise (· < ·)) :
    items.Nodup := by
  apply h.imp
  intro first second hlt heq
  exact String.lt_irrefl second (heq ▸ hlt)

theorem pairwise_insertUnique (item : String) {items : List String}
    (h : items.Pairwise (· < ·)) : (insertUnique item items).Pairwise (· < ·) := by
  induction items with
  | nil => simp [insertUnique]
  | cons known rest ih =>
      rw [List.pairwise_cons] at h
      unfold insertUnique
      split
      · rename_i hlt
        rw [List.pairwise_cons, List.pairwise_cons]
        refine ⟨?_, h⟩
        intro other hother
        rcases List.mem_cons.mp hother with rfl | hother
        · exact hlt
        · exact Std.lt_trans hlt (h.1 other hother)
      · split
        · exact List.pairwise_cons.mpr h
        · rename_i hlt hne
          rw [List.pairwise_cons]
          refine ⟨?_, ih h.2⟩
          intro other hother
          rcases mem_insertUnique.mp hother with rfl | hother
          · exact Std.lt_of_le_of_ne (Std.not_lt.mp hlt) fun heq => hne heq.symm
          · exact h.1 other hother

end QueryPipeline
