import QueryPipeline.Proofs.Embed.FieldsRead

namespace QueryPipeline.Embed

/-! The walk told by the declarations alone.  Of the segments ahead, the longest initial run
that is a field is followed, whether or not every shorter run is a field as well.  They all
are: with a path, the paths above it are fields. -/

/-- No longer initial run of `run ++ rest` is a field.  `run` is empty where none is. -/
structure LongestMatch (schemas : Entries CollectionSchema) (owner : String)
    (run rest : List String) : Prop where
  isField : run ≠ [] → Registry.IsField schemas owner (Path.join run)
  longest : ∀ longer, longer <+: run ++ rest → run.length < longer.length →
    ¬Registry.IsField schemas owner (Path.join longer)

/-- After `hops` references from `root`, `done` is behind and `rest` is ahead. -/
inductive Reaches (schemas : Entries CollectionSchema) (root : Collection)
    (segments : List String) : Nat → List String → Collection → List String → Prop
  | start : Reaches schemas root segments 0 [] root segments
  | hop (reached : Reaches schemas root segments hops done current (run ++ rest))
      (found : LongestMatch schemas current.name run rest) (nonempty : run ≠ [])
      (leads : Leads schemas current.name (Path.join run) next) :
      Reaches schemas root segments (hops + 1) (done ++ run) next rest

def Resolves (schemas : Entries CollectionSchema) (root : Collection) (path : String)
    (target : Collection) : Prop :=
  ∃ hops, Reaches schemas root (Path.segments path) hops (Path.segments path) target []

variable {schemas : Entries CollectionSchema} {root current target : Collection}
  {segments done run rest : List String} {path : String} {hops : Nat}

theorem begins_join {parts initial : List String} (hne : initial ≠ [])
    (hinitial : initial <+: parts) (hparts : parts ⊆ Path.segments path) :
    Path.Begins (Path.join initial) (Path.join parts) := by
  have hwhole : parts ≠ [] := by
    rintro rfl
    exact hne (List.prefix_nil.mp hinitial)
  have hsubset : initial ⊆ Path.segments path := List.Subset.trans hinitial.subset hparts
  rw [Path.Begins, Path.segments_join_of_subset hne hsubset,
    Path.segments_join_of_subset hwhole hparts]
  exact hinitial

theorem LongestMatch.fieldRun (h : LongestMatch schemas current.name run rest)
    (hparts : run ++ rest ⊆ Path.segments path) :
    FieldRun (.ofSchemas schemas) current run rest where
  isField := by
    intro initial hne hinitial
    have hrun : run ≠ [] := by
      rintro rfl
      exact hne (List.prefix_nil.mp hinitial)
    have hsubset : run ⊆ Path.segments path :=
      List.Subset.trans (List.subset_append_left run rest) hparts
    exact Registry.hasField_ofSchemas_iff.mpr
      ((h.isField hrun).of_begins (begins_join hne hinitial hsubset))
  longest := by
    intro next hnext
    obtain ⟨others, rfl⟩ := List.head?_eq_some_iff.mp hnext
    rw [Bool.eq_false_iff, ne_eq, Registry.hasField_ofSchemas_iff]
    apply h.longest
    · exact (List.prefix_append_right_inj run).mpr (List.cons_prefix_cons.mpr ⟨rfl, List.nil_prefix⟩)
    · rw [List.length_append, List.length_singleton]
      omega

/-- A longer field would have the first segment behind the run in it, and what comes up to
that segment would be a field too. -/
theorem FieldRun.longestMatch (h : FieldRun (.ofSchemas schemas) current run rest)
    (hparts : run ++ rest ⊆ Path.segments path) :
    LongestMatch schemas current.name run rest where
  isField := fun hrun =>
    Registry.hasField_ofSchemas_iff.mp (h.isField run hrun (List.prefix_refl run))
  longest := by
    intro longer hlonger hlength hfield
    obtain ⟨more, rfl⟩ := List.prefix_of_prefix_length_le (List.prefix_append run rest) hlonger
      (Nat.le_of_lt hlength)
    obtain ⟨next, others, rfl⟩ : ∃ next others, more = next :: others := by
      apply List.exists_cons_of_ne_nil
      rintro rfl
      rw [List.append_nil] at hlength
      exact Nat.lt_irrefl _ hlength
    obtain ⟨left, rfl⟩ := (List.prefix_append_right_inj run).mp hlonger
    have hsubset : run ++ next :: others ⊆ Path.segments path := by
      refine List.Subset.trans ?_ hparts
      rw [← List.append_assoc]
      exact List.subset_append_left _ left
    have hbegins : Path.Begins (Path.join (run ++ [next])) (Path.join (run ++ next :: others)) := by
      apply begins_join (by simp) _ hsubset
      exact (List.prefix_append_right_inj run).mpr
        (List.cons_prefix_cons.mpr ⟨rfl, List.nil_prefix⟩)
    have hshorter := Registry.hasField_ofSchemas_iff.mpr (hfield.of_begins hbegins)
    rw [h.longest next rfl] at hshorter
    cases hshorter

theorem Passes.ahead_subset {registry : Registry}
    (h : Passes registry root (Path.segments path) done current rest) :
    rest ⊆ Path.segments path :=
  h.done_append ▸ List.subset_append_right done rest

theorem Reaches.passes (h : Reaches schemas root (Path.segments path) hops done current rest) :
    Passes (.ofSchemas schemas) root (Path.segments path) done current rest := by
  induction h with
  | start => exact .start
  | hop _ found nonempty leads ih =>
      exact .hop ih ⟨found.fieldRun ih.ahead_subset, nonempty,
        follow_ofSchemas_eq_ok_iff.mpr leads⟩

theorem Passes.exists_reaches
    (h : Passes (.ofSchemas schemas) root (Path.segments path) done current rest) :
    ∃ hops, Reaches schemas root (Path.segments path) hops done current rest := by
  induction h with
  | start => exact ⟨0, .start⟩
  | hop passed next ih =>
      obtain ⟨hops, hreached⟩ := ih
      exact ⟨hops + 1, .hop hreached (next.toFieldRun.longestMatch passed.ahead_subset)
        next.nonempty (follow_ofSchemas_eq_ok_iff.mp next.follows)⟩

/-- Every hop takes a segment, so going round in circles ends with the path. -/
theorem Reaches.hops_le (h : Reaches schemas root segments hops done current rest) :
    hops ≤ done.length := by
  induction h with
  | start => exact Nat.le_refl 0
  | hop _ _ nonempty _ ih =>
      have hrun := List.length_pos_iff.mpr nonempty
      rw [List.length_append]
      omega

theorem resolve_eq_ok_iff_resolves :
    resolve (.ofSchemas schemas) root path = .ok target ↔ Resolves schemas root path target := by
  rw [resolve_eq_ok_iff]
  constructor
  · exact Passes.exists_reaches
  · rintro ⟨hops, hreached⟩
    exact hreached.passes

theorem resolveRequested_eq_ok_some_iff {registry : Registry} {requested : List String} :
    resolveRequested registry root requested path = .ok (some target) ↔
      resolve registry root path = .ok target := by
  rw [resolveRequested]
  cases resolve registry root path with
  | ok found => simp
  | error obstacle =>
      by_cases hrequested : path ∈ requested
      · simp [hrequested]
      · simp [hrequested]

theorem walk_takes_longest_match (schemas : Entries CollectionSchema) (root : Collection)
    (requested : List String) (path : String) :
    (∀ target, resolveRequested (.ofSchemas schemas) root requested path = .ok (some target) ↔
      Resolves schemas root path target) ∧
    ∀ hops done reached rest,
      Reaches schemas root (Path.segments path) hops done reached rest →
        hops ≤ Path.depth path ∧
          resolve (.ofSchemas schemas) root path =
            walkFrom (.ofSchemas schemas) reached done [] rest := by
  refine ⟨fun target => ?_, ?_⟩
  · rw [resolveRequested_eq_ok_some_iff, resolve_eq_ok_iff_resolves]
  · intro hops done reached rest hreached
    have hlength := congrArg List.length hreached.passes.done_append
    have hhops := hreached.hops_le
    rw [List.length_append] at hlength
    refine ⟨?_, hreached.passes.walkFrom_eq⟩
    rw [Path.depth]
    omega

/-- At the review the walk takes `book.author` and not `book`, though both are declared, and
then it goes from author to author. -/
theorem walk_takes_longest_match_mentors :
    ∃ hops, Reaches (reviewSchemas (.reference (some "Book"))) ⟨"Review", "reviews"⟩
        ["book", "author", "mentor", "mentor"] hops ["book", "author", "mentor", "mentor"]
        ⟨"Author", "authors"⟩ [] ∧
      hops ≤ 4 := by
  obtain ⟨hresolves, hbound⟩ := walk_takes_longest_match
    (reviewSchemas (.reference (some "Book"))) ⟨"Review", "reviews"⟩ [] "book.author.mentor.mentor"
  obtain ⟨hops, hreached⟩ := (hresolves ⟨"Author", "authors"⟩).mp rfl
  exact ⟨hops, hreached, (hbound hops _ _ _ hreached).1⟩

end QueryPipeline.Embed
