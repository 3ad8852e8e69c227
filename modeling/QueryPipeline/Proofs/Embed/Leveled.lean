import QueryPipeline.Proofs.Embed.Answered
import QueryPipeline.Proofs.Embed.Plan

namespace QueryPipeline.Embed

structure IsLevel (paths : List String) (depth : Nat) (level : Level) : Prop where
  ordered : level.Pairwise (· < ·)
  mem_iff : ∀ path, path ∈ level ↔
    (∃ source ∈ paths, Path.Begins path source) ∧ Path.depth path = depth

structure Leveled (paths : List String) (planned : List Level) : Prop where
  length_eq : planned.length = Path.deepest paths
  isLevel : ∀ index level, planned[index]? = some level → IsLevel paths (index + 1) level

variable {paths left right : List String} {planned : List Level} {level lower : Level}
  {depth index : Nat} {path : String}

theorem Leveled.mem_iff (h : Leveled paths planned) (hlevel : planned[index]? = some level) :
    path ∈ level ↔
      (∃ source ∈ paths, Path.Begins path source) ∧ Path.depth path = index + 1 :=
  (h.isLevel index level hlevel).mem_iff path

theorem Leveled.ordered (h : Leveled paths planned) :
    ∀ level ∈ planned, level.Pairwise (· < ·) := by
  intro level hlevel
  obtain ⟨index, hindex⟩ := List.mem_iff_getElem?.mp hlevel
  exact (h.isLevel index level hindex).ordered

theorem Leveled.mem_levelAt_iff (h : Leveled paths planned) :
    path ∈ levelAt planned index ↔
      (∃ source ∈ paths, Path.Begins path source) ∧ Path.depth path = index + 1 := by
  rw [mem_levelAt]
  constructor
  · rintro ⟨level, hlevel, hpath⟩
    exact (h.mem_iff hlevel).mp hpath
  · rintro ⟨⟨source, hsource, hbegins⟩, hdepth⟩
    have hle := hbegins.depth_le
    have hindex : index < planned.length := by
      rw [h.length_eq, Path.lt_deepest_iff]
      exact ⟨source, hsource, by omega⟩
    have hlevel := List.getElem?_eq_getElem hindex
    exact ⟨_, hlevel, (h.mem_iff hlevel).mpr ⟨⟨source, hsource, hbegins⟩, hdepth⟩⟩

theorem IsLevel.congr (hpaths : ∀ path, path ∈ left ↔ path ∈ right)
    (h : IsLevel left depth level) : IsLevel right depth level where
  ordered := h.ordered
  mem_iff := by simpa only [hpaths] using h.mem_iff

theorem Leveled.congr (hpaths : ∀ path, path ∈ left ↔ path ∈ right)
    (h : Leveled left planned) : Leveled right planned where
  length_eq := h.length_eq.trans (Path.deepest_congr hpaths)
  isLevel := fun index level hlevel => (h.isLevel index level hlevel).congr hpaths

theorem leveled_nil : Leveled [] [] where
  length_eq := rfl
  isLevel := by simp

theorem Leveled.add (h : Leveled paths planned) (path : String) :
    Leveled (path :: paths) (addPrefixes (pathPrefixes path) planned) where
  length_eq := by
    rw [length_addPrefixes, length_pathPrefixes, h.length_eq, Path.deepest_cons]
  isLevel := by
    intro index level hlevel
    refine ⟨pairwise_addPrefixes h.ordered level (List.mem_of_getElem? hlevel), ?_⟩
    intro initial
    have hmem : initial ∈ level ↔
        initial ∈ levelAt (addPrefixes (pathPrefixes path) planned) index := by
      simp [mem_levelAt, hlevel]
    rw [hmem, mem_levelAt_addPrefixes, Path.getElem?_pathPrefixes, h.mem_levelAt_iff,
      List.exists_mem_cons_iff, or_and_right]

/-- The paths behind are those whose prefixes are in the levels already. -/
theorem Leveled.foldl (h : Leveled left planned) (ahead : List String) :
    Leveled (ahead.reverse ++ left)
      (ahead.foldl (fun known path => addPrefixes (pathPrefixes path) known) planned) := by
  induction ahead generalizing left planned with
  | nil => exact h
  | cons first rest ih =>
      rw [List.foldl_cons, List.reverse_cons, List.append_assoc, List.singleton_append]
      exact ih (h.add first)

theorem leveled_levels (paths : List String) : Leveled paths (levels paths) :=
  (leveled_nil.foldl paths).congr (by simp)

theorem IsLevel.unique {first second : Level} (hfirst : IsLevel paths depth first)
    (hsecond : IsLevel paths depth second) : first = second := by
  apply eq_of_ascending id
  · rw [List.map_id]
    exact hfirst.ordered
  · rw [List.map_id]
    exact hsecond.ordered
  · intro path
    exact (hfirst.mem_iff path).trans (hsecond.mem_iff path).symm

theorem Leveled.unique {first second : List Level} (hfirst : Leveled paths first)
    (hsecond : Leveled paths second) : first = second := by
  apply List.ext_getElem (hfirst.length_eq.trans hsecond.length_eq.symm)
  intro index hindexFirst hindexSecond
  exact (hfirst.isLevel index _ (List.getElem?_eq_getElem hindexFirst)).unique
    (hsecond.isLevel index _ (List.getElem?_eq_getElem hindexSecond))

theorem levels_congr (h : ∀ path, path ∈ left ↔ path ∈ right) : levels left = levels right :=
  ((leveled_levels left).congr h).unique (leveled_levels right)

theorem Leveled.exists_level (h : Leveled paths planned)
    (hpath : ∃ source ∈ paths, Path.Begins path source) :
    ∃ level, planned[Path.depth path - 1]? = some level ∧ path ∈ level := by
  have hpos := Path.depth_pos path
  exact mem_levelAt.mp (h.mem_levelAt_iff.mpr ⟨hpath, by omega⟩)

theorem Leveled.mem_flatten_iff (h : Leveled paths planned) :
    path ∈ planned.flatten ↔ ∃ source ∈ paths, Path.Begins path source := by
  rw [List.mem_flatten]
  constructor
  · rintro ⟨level, hlevel, hpath⟩
    obtain ⟨index, hindex⟩ := List.mem_iff_getElem?.mp hlevel
    exact ((h.mem_iff hindex).mp hpath).1
  · intro hpath
    obtain ⟨level, hlevel, hmem⟩ := h.exists_level hpath
    exact ⟨level, List.mem_of_getElem? hlevel, hmem⟩

theorem Leveled.ne_nil (h : Leveled paths planned) (hlevel : level ∈ planned) :
    level ≠ [] := by
  obtain ⟨index, hindex⟩ := List.mem_iff_getElem?.mp hlevel
  have hlt : index < Path.deepest paths := by
    rw [← h.length_eq]
    exact (List.getElem?_eq_some_iff.mp hindex).1
  obtain ⟨source, hsource, hdeep⟩ := Path.lt_deepest_iff.mp hlt
  obtain ⟨initial, hbegins, hdepth⟩ := Path.exists_initial hdeep
  exact List.ne_nil_of_mem
    ((h.mem_iff hindex).mpr ⟨⟨source, hsource, hbegins⟩, hdepth⟩)

theorem Leveled.disjoint (h : Leveled paths planned) : planned.Pairwise List.Disjoint := by
  have hrows := disjoint_of_depth id fun index level hlevel path hpath =>
    ((h.mem_iff hlevel).mp hpath).2
  simpa only [List.map_id] using hrows

theorem Leveled.exists_parent (h : Leveled paths planned)
    (hlower : planned[index + 1]? = some lower) :
    ∃ upper, planned[index]? = some upper ∧ ∀ path ∈ lower, ∃ parent ∈ upper,
      Path.segments parent = (Path.segments path).dropLast := by
  have hindex : index < planned.length := by
    have hsucc := (List.getElem?_eq_some_iff.mp hlower).1
    omega
  have hupper := List.getElem?_eq_getElem hindex
  refine ⟨_, hupper, ?_⟩
  intro path hpath
  obtain ⟨⟨source, hsource, hbegins⟩, hdepth⟩ := (h.mem_iff hlower).mp hpath
  obtain ⟨parent, hparent⟩ := Path.exists_parent (by omega : 1 < Path.depth path)
  refine ⟨parent, (h.mem_iff hupper).mpr ⟨⟨source, hsource, ?_⟩, ?_⟩, hparent⟩
  · refine Path.Begins.trans ?_ hbegins
    rw [Path.Begins, hparent]
    exact List.dropLast_prefix _
  · rw [Path.depth] at hdepth ⊢
    rw [hparent, List.length_dropLast, hdepth, Nat.add_sub_cancel]

/-- The levels of any paths, whatever their order, their repetitions and their segments.
While they are built, an index beyond the next level would be refused, and none is. -/
theorem levels_by_depth (paths : List String) :
    Leveled paths (levels paths) ∧
    (∀ level ∈ levels paths, level ≠ []) ∧
    (levels paths).Pairwise List.Disjoint ∧
    (∀ path, path ∈ (levels paths).flatten ↔ ∃ source ∈ paths, Path.Begins path source) ∧
    (∀ index lower, (levels paths)[index + 1]? = some lower →
      ∃ upper, (levels paths)[index]? = some upper ∧ ∀ path ∈ lower, ∃ parent ∈ upper,
        Path.segments parent = (Path.segments path).dropLast) ∧
    (∀ other, (∀ path, path ∈ other ↔ path ∈ paths) → levels other = levels paths) ∧
    indexedLevels paths = .ok (levels paths) ∧
    ∀ index path known, (∃ misuse, placeAt index path known = .error misuse) ↔
      known.length < index := by
  have h := leveled_levels paths
  refine ⟨h, ?_, h.disjoint, ?_, ?_, ?_, indexedLevels_eq paths, ?_⟩
  · exact fun level hlevel => h.ne_nil hlevel
  · exact fun path => h.mem_flatten_iff
  · exact fun index lower hlower => h.exists_parent hlower
  · exact fun other hmem => levels_congr hmem
  · exact fun index path known => exists_placeAt_eq_error_iff

def blankPaths : List String :=
  ["meta..company", "author", ".", "author.company", "author"]

def blankPathsReordered : List String :=
  [".", "author.company", ".", "author", "meta..company"]

theorem levels_by_depth_blank :
    levels blankPaths =
      [["", "author", "meta"], [".", "author.company", "meta."], ["meta..company"]] ∧
    (levels blankPaths)[1 + 1]? = some ["meta..company"] ∧
    (∃ upper, (levels blankPaths)[1]? = some upper ∧ ∀ path ∈ ["meta..company"],
      ∃ parent ∈ upper, Path.segments parent = (Path.segments path).dropLast) ∧
    (∀ path, path ∈ blankPathsReordered ↔ path ∈ blankPaths) ∧
    levels blankPathsReordered = levels blankPaths := by
  obtain ⟨-, -, -, -, hparent, hreordered, -⟩ := levels_by_depth blankPaths
  have hlevels : levels blankPaths =
      [["", "author", "meta"], [".", "author.company", "meta."], ["meta..company"]] := rfl
  have hlower : (levels blankPaths)[1 + 1]? = some ["meta..company"] := by
    rw [hlevels]
    rfl
  have hmem : ∀ path, path ∈ blankPathsReordered ↔ path ∈ blankPaths := by
    intro path
    simp only [blankPathsReordered, blankPaths, List.mem_cons, List.not_mem_nil, or_false]
    tauto
  exact ⟨hlevels, hlower, hparent 1 _ hlower, hmem, hreordered _ hmem⟩

end QueryPipeline.Embed
