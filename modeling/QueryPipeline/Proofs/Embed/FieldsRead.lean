import QueryPipeline.Proofs.Embed.ParentsFirst
import QueryPipeline.Proofs.Schema.Expanded

namespace QueryPipeline

/-! Which field a join reads.  The identifiers at a path are read from the documents that
are joined nearest above it.  What is left of the path is a reference of theirs, unless
another reference is declared above that one: then the walk passes by the documents joined
there, and they take the place of the ones it reads. -/

namespace Embed

def Leads (schemas : Entries CollectionSchema) (owner field : String)
    (next : Collection) : Prop :=
  ∃ schema target, schemas.get? owner = some schema ∧
    schema.fields.get? field = some (.reference (some target)) ∧ target ≠ "" ∧
      (Registry.ofSchemas schemas).collection? target = some next

/-- No other reference of the collection is declared above the field. -/
def Uppermost (schemas : Entries CollectionSchema) (owner field : String) : Prop :=
  ∀ outer next, Leads schemas owner outer next → Path.Begins outer field → outer = field

/-- Whose documents are read at a boundary.  Where there is none, the rows are the root's. -/
def Holds (registry : Registry) (root : Collection) : Option String → Collection → Prop
  | none, owner => owner = root
  | some path, owner => resolve registry root path = .ok owner

def upTo (boundary : Option String) : List String :=
  boundary.elim [] Path.segments

/-- The documents of `owner`, which are read at `boundary`, refer to `source` in the field
that is left of the path. -/
structure LastHop (schemas : Entries CollectionSchema) (root : Collection) (path : String)
    (boundary : Option String) (owner : Collection) (field : String)
    (source : Collection) : Prop where
  holds : Holds (.ofSchemas schemas) root boundary owner
  segments_eq : Path.segments path = upTo boundary ++ Path.segments field
  leads : Leads schemas owner.name field source

def JoinedIn (base : Option String) (stages : List Stage) (path : String) : Prop :=
  Path.qualify path base ∈ (Pipeline.joins stages).map Join.target

/-- The longest path above `path` that is joined, or nothing where none is. -/
structure Nearest (joined : String → Prop) (path : String)
    (boundary : Option String) : Prop where
  above : ∀ nearest ∈ boundary, joined nearest ∧ Path.Begins nearest path ∧ nearest ≠ path
  longest : ∀ other, joined other → Path.Begins other path → other ≠ path →
    Path.depth other ≤ (upTo boundary).length

variable {registry : Registry} {root owner target : Collection}
  {segments reached done run : List String}

theorem follow_eq_ok_iff {current next : Collection} {field : String} :
    follow registry current field = .ok next ↔
      ∃ target, registry.field? current.name field = some (.reference (some target)) ∧
        target ≠ "" ∧ registry.collection? target = some next := by
  rw [follow]
  cases registry.field? current.name field with
  | none => simp
  | some spec =>
      cases spec with
      | plain => simp
      | reference target =>
          cases target with
          | none => simp
          | some target =>
              by_cases hempty : target = ""
              · simp [hempty]
              · cases hnext : registry.collection? target <;> simp [hempty, hnext]

theorem follow_ofSchemas_eq_ok_iff {schemas : Entries CollectionSchema}
    {current next : Collection} {field : String} :
    follow (.ofSchemas schemas) current field = .ok next ↔
      Leads schemas current.name field next := by
  simp only [follow_eq_ok_iff, Registry.field?_ofSchemas, Option.bind_eq_some_iff,
    Registry.get?_expandFields_eq_reference_iff, Leads]
  constructor
  · rintro ⟨target, ⟨schema, hschema, hfield⟩, hne, hnext⟩
    exact ⟨schema, target, hschema, hfield, hne, hnext⟩
  · rintro ⟨schema, target, hschema, hfield, hne, hnext⟩
    exact ⟨target, ⟨schema, hschema, hfield⟩, hne, hnext⟩

theorem Passes.owner_eq (h : Passes registry root segments [] owner run) : owner = root := by
  generalize hdone : ([] : List String) = done at h
  cases h with
  | start => rfl
  | hop _ next => exact absurd (List.append_eq_nil_iff.mp hdone.symm).2 next.nonempty

theorem Passes.exists_last_hop (h : Passes registry root segments reached target [])
    (hreached : reached ≠ []) :
    ∃ done run owner, reached = done ++ run ∧
      Passes registry root segments done owner run ∧ Hop registry owner run [] target := by
  cases h with
  | start => exact absurd rfl hreached
  | @hop done owner run _ _ passed next =>
      rw [List.append_nil] at passed
      exact ⟨done, run, owner, rfl, passed, next⟩

theorem Passes.segments_join {path : String}
    (h : Passes registry root (Path.segments path) done owner run) (hrun : run ≠ []) :
    Path.segments (Path.join run) = run :=
  Path.segments_join_of_subset hrun (h.done_append ▸ List.subset_append_right done run)

theorem Passes.walkFrom_eq_follow (h : Passes registry root segments done owner run)
    (hhop : Hop registry owner run [] target) {initial : List String}
    (hne : initial ≠ []) (hinitial : initial <+: run) :
    walkFrom registry root [] [] (done ++ initial) =
      (follow registry owner (Path.join initial)).mapError fun reason =>
        ⟨done ++ initial, reason⟩ := by
  have hrun : FieldRun registry owner initial [] :=
    ⟨fun other hother hstart => hhop.isField other hother (hstart.trans hinitial), by simp⟩
  rw [(h.cut hinitial).walkFrom_eq, ← List.append_nil initial, hrun.walkFrom_eq,
    List.append_nil, hrun.walkFrom_follow hne]
  cases follow registry owner (Path.join initial) with
  | error reason => rfl
  | ok next => simp [walkFrom, Except.mapError]

theorem Passes.resolve_inside_iff {schemas : Entries CollectionSchema} {path inside : String}
    {initial : List String} {next : Collection}
    (h : Passes (.ofSchemas schemas) root (Path.segments path) done owner run)
    (hhop : Hop (.ofSchemas schemas) owner run [] target)
    (hne : initial ≠ []) (hinitial : initial <+: run)
    (hinside : Path.segments inside = done ++ initial) :
    resolve (.ofSchemas schemas) root inside = .ok next ↔
      Leads schemas owner.name (Path.join initial) next := by
  rw [resolve, hinside, h.walkFrom_eq_follow hhop hne hinitial, mapError_eq_ok_iff,
    follow_ofSchemas_eq_ok_iff]

theorem Passes.depth_le_of_resolve {schemas : Entries CollectionSchema} {path other : String}
    {next : Collection}
    (h : Passes (.ofSchemas schemas) root (Path.segments path) done owner run)
    (hhop : Hop (.ofSchemas schemas) owner run [] target)
    (huppermost : Uppermost schemas owner.name (Path.join run))
    (hbegins : Path.Begins other path) (hproper : other ≠ path)
    (hresolve : resolve (.ofSchemas schemas) root other = .ok next) :
    Path.depth other ≤ done.length := by
  apply Nat.le_of_not_lt
  intro hdeeper
  have hpath := h.done_append
  obtain ⟨initial, hother⟩ : done <+: Path.segments other :=
    List.prefix_of_prefix_length_le ⟨run, hpath⟩ hbegins (Nat.le_of_lt hdeeper)
  have hinitial : initial <+: run := by
    rw [Path.Begins, ← hother, ← hpath] at hbegins
    exact List.prefix_append_right_inj done |>.mp hbegins
  have hne : initial ≠ [] := by
    rintro rfl
    rw [Path.depth, ← hother, List.append_nil] at hdeeper
    exact Nat.lt_irrefl _ hdeeper
  have hrun := h.segments_join hhop.nonempty
  have houter : Path.segments (Path.join initial) = initial :=
    Path.segments_join_of_subset hne
      (List.Subset.trans hinitial.subset (hpath ▸ List.subset_append_right done run))
  have hsame : Path.join initial = Path.join run := by
    apply huppermost _ _ ((h.resolve_inside_iff hhop hne hinitial hother.symm).mp hresolve)
    rw [Path.Begins, houter, hrun]
    exact hinitial
  apply hproper
  apply Path.segments_inj
  rw [← hother, ← hpath, ← houter, hsame, hrun]

theorem Passes.exists_boundary {path : String}
    (h : Passes registry root (Path.segments path) done owner run) (hrun : run ≠ []) :
    ∃ boundary, upTo boundary = done ∧ Holds registry root boundary owner ∧
      ∀ nearest ∈ boundary, Path.Begins nearest path ∧ nearest ≠ path := by
  by_cases hdone : done = []
  · subst hdone
    exact ⟨none, rfl, h.owner_eq, by simp⟩
  · have hpath := h.done_append
    have hsegments : Path.segments (Path.join done) = done :=
      Path.segments_join_of_subset hdone (hpath ▸ List.subset_append_left done run)
    have hboundary : Boundary registry root path (Path.join done) owner :=
      ⟨run, hsegments.symm ▸ h⟩
    refine ⟨some (Path.join done), hsegments, hboundary.resolve_eq, ?_⟩
    intro nearest hnearest
    rw [← Option.mem_some.mp hnearest]
    refine ⟨hboundary.begins, ?_⟩
    intro heq
    rw [heq, ← hpath] at hsegments
    exact hrun (List.self_eq_append_right.mp hsegments.symm)

theorem mem_of_sublist_append_cons {first second : α} {front back : List α}
    (h : [first, second].Sublist (front ++ second :: back))
    (hnodup : (front ++ second :: back).Nodup) : first ∈ front := by
  have hback : second ∉ back := (List.nodup_cons.mp hnodup.of_append_right).1
  obtain ⟨left, right, heq, hleft, hright⟩ := List.sublist_append_iff.mp h
  cases left with
  | nil =>
      rw [List.nil_append] at heq
      subst heq
      exact absurd (hright.of_cons_cons.subset (List.mem_singleton_self second)) hback
  | cons known others =>
      rw [List.cons_append, List.cons_eq_cons] at heq
      exact hleft.subset (heq.1 ▸ List.mem_cons_self)

variable {requested : List String} {batches : List Batch} {base : Option String}
  {front back : List Stage} {join : Join} {path other : String} {next : Collection}

theorem joins_append_lookup :
    Pipeline.joins (front ++ .lookup join :: back) =
      Pipeline.joins front ++ join :: Pipeline.joins back := by
  rw [Pipeline.joins_append]
  rfl

theorem exists_entry_of_append_lookup (h : batches.flatMap (batchStages base) =
      front ++ .lookup join :: back) :
    ∃ entry ∈ batches.flatten, join = entryJoin base entry := by
  have hmem : join ∈ batches.flatten.map (entryJoin base) := by
    rw [← joins_plan, h, joins_append_lookup]
    exact List.mem_append_right _ List.mem_cons_self
  obtain ⟨entry, hentry, rfl⟩ := List.mem_map.mp hmem
  exact ⟨entry, hentry, rfl⟩

theorem IsPlan.resolve_of_joinedIn (h : IsPlan registry root [] requested batches)
    (hstages : batches.flatMap (batchStages base) = front ++ .lookup join :: back)
    (hother : JoinedIn base front other) :
    ∃ next, resolve registry root other = .ok next := by
  obtain ⟨known, hknown, htarget⟩ := List.mem_map.mp hother
  have hmem : known ∈ batches.flatten.map (entryJoin base) := by
    rw [← joins_plan, hstages, joins_append_lookup]
    exact List.mem_append_left _ hknown
  obtain ⟨entry, hentry, rfl⟩ := List.mem_map.mp hmem
  have hsame : entry.1 = other := Path.qualify_inj htarget
  exact ⟨entry.2, hsame ▸ (h.mem_flatten_iff.mp hentry).2.1⟩

theorem IsPlan.joinedIn_of_resolve (h : IsPlan registry root [] requested batches)
    (hstages : batches.flatMap (batchStages base) =
      front ++ .lookup (entryJoin base (path, target)) :: back)
    (hpath : (path, target) ∈ batches.flatten)
    (hbegins : Path.Begins other path) (hproper : other ≠ path)
    (hresolve : resolve registry root other = .ok next) : JoinedIn base front other := by
  obtain ⟨⟨source, hsource, hpathBegins⟩, _⟩ := h.mem_flatten_iff.mp hpath
  have hother : (other, next) ∈ batches.flatten :=
    h.mem_flatten_iff.mpr
      ⟨⟨source, hsource, hbegins.trans hpathBegins⟩, hresolve, List.not_mem_nil⟩
  obtain ⟨firsts, _, hbefore⟩ := h.shallower_before base hother hpath (hbegins.depth_lt hproper)
  have hjoins : [entryJoin base (other, next), entryJoin base (path, target)].Sublist
      (Pipeline.joins front ++ entryJoin base (path, target) :: Pipeline.joins back) := by
    rw [← joins_append_lookup, ← hstages]
    exact hbefore.filterMap Stage.join?
  have hnodup : (Pipeline.joins front ++
      entryJoin base (path, target) :: Pipeline.joins back).Nodup := by
    apply List.Nodup.of_map Join.target
    rw [← joins_append_lookup, ← hstages, joins_plan, map_target_entryJoin]
    exact nodup_qualified base h.nodup_paths
  exact List.mem_map.mpr ⟨_, mem_of_sublist_append_cons hjoins hnodup, rfl⟩

theorem IsPlan.depth_le_iff_uppermost {schemas : Entries CollectionSchema}
    (h : IsPlan (.ofSchemas schemas) root [] requested batches)
    (hstages : batches.flatMap (batchStages base) =
      front ++ .lookup (entryJoin base (path, target)) :: back)
    (hpath : (path, target) ∈ batches.flatten)
    (hpassed : Passes (.ofSchemas schemas) root (Path.segments path) done owner run)
    (hhop : Hop (.ofSchemas schemas) owner run [] target) :
    (∀ other, JoinedIn base front other → Path.Begins other path → other ≠ path →
      Path.depth other ≤ done.length) ↔ Uppermost schemas owner.name (Path.join run) := by
  have hsegments := hpassed.done_append
  constructor
  · intro hdepth outer next hleads hbegins
    apply Classical.byContradiction
    intro hne
    -- The walk along the path goes past the end of `outer`, where a walk of its own ends.
    rw [Path.Begins, hpassed.segments_join hhop.nonempty] at hbegins
    have hstart : done ++ Path.segments outer <+: Path.segments path := by
      rw [← hsegments]
      exact List.prefix_append_right_inj done |>.mpr hbegins
    have hother : Path.segments (Path.join (done ++ Path.segments outer)) =
        done ++ Path.segments outer :=
      Path.segments_join_of_subset (by simp [Path.segments_ne_nil]) hstart.subset
    have hresolve : resolve (.ofSchemas schemas) root
        (Path.join (done ++ Path.segments outer)) = .ok next := by
      rw [hpassed.resolve_inside_iff hhop (Path.segments_ne_nil outer) hbegins hother,
        Path.join_segments]
      exact hleads
    have hproper : Path.join (done ++ Path.segments outer) ≠ path := by
      intro heq
      rw [heq, ← hsegments, List.append_cancel_left_eq] at hother
      rw [hother, Path.join_segments] at hne
      exact hne rfl
    have hpositive := Path.depth_pos outer
    rw [← hother] at hstart
    have hjoined := h.joinedIn_of_resolve hstages hpath hstart hproper hresolve
    have hle := hdepth _ hjoined hstart hproper
    rw [Path.depth, hother, List.length_append] at hle
    rw [Path.depth] at hpositive
    omega
  · intro huppermost other hother hbegins hproper
    obtain ⟨next, hnext⟩ := h.resolve_of_joinedIn hstages hother
    exact hpassed.depth_le_of_resolve hhop huppermost hbegins hproper hnext

theorem IsPlan.exists_lastHop {schemas : Entries CollectionSchema}
    (h : IsPlan (.ofSchemas schemas) root [] requested batches)
    (hstages : batches.flatMap (batchStages base) =
      front ++ .lookup (entryJoin base (path, target)) :: back)
    (hpath : (path, target) ∈ batches.flatten) :
    ∃ boundary owner field, LastHop schemas root path boundary owner field target ∧
      (Nearest (JoinedIn base front) path boundary ↔ Uppermost schemas owner.name field) := by
  have hresolve := resolve_eq_ok_iff.mp (h.mem_flatten_iff.mp hpath).2.1
  obtain ⟨done, run, owner, hsegments, hpassed, hhop⟩ :=
    hresolve.exists_last_hop (Path.segments_ne_nil path)
  obtain ⟨boundary, rfl, hholds, habove⟩ := hpassed.exists_boundary hhop.nonempty
  refine ⟨boundary, owner, Path.join run, ⟨hholds, ?_, ?_⟩, ?_⟩
  · rw [hpassed.segments_join hhop.nonempty, hsegments]
  · exact follow_ofSchemas_eq_ok_iff.mp hhop.follows
  · rw [← h.depth_le_iff_uppermost hstages hpath hpassed hhop]
    constructor
    · exact Nearest.longest
    · intro hlongest
      refine ⟨?_, hlongest⟩
      rintro nearest rfl
      obtain ⟨hbegins, hproper⟩ := habove nearest rfl
      exact ⟨h.joinedIn_of_resolve hstages hpath hbegins hproper hholds, hbegins, hproper⟩

/-- Every join follows a declared reference.  The documents that declare it are those joined
nearest above exactly where no other reference is declared above it. -/
theorem joins_read_declared_fields (schemas : Entries CollectionSchema) (query : Query)
    (root : Collection) (base : Option String) (front back : List Stage) (join : Join)
    (hstages : query.embedStages (.ofSchemas schemas) root base [] =
      .ok (front ++ .lookup join :: back)) :
    ∃ path boundary owner field source,
      join = Join.byId source.physicalName (Path.qualify path base) ∧
        LastHop schemas root path boundary owner field source ∧
        (Nearest (JoinedIn base front) path boundary ↔ Uppermost schemas owner.name field) := by
  obtain ⟨requested, _, hcompile⟩ := Query.embedStages_eq_ok_iff.mp hstages
  obtain ⟨_, batches, hplan, heq⟩ := compile_eq_ok_iff.mp hcompile
  obtain ⟨⟨path, source⟩, hpath, rfl⟩ := exists_entry_of_append_lookup heq.symm
  obtain ⟨boundary, owner, field, hhop, hnearest⟩ := hplan.exists_lastHop heq.symm hpath
  exact ⟨path, boundary, owner, field, source, rfl, hhop, hnearest⟩

def reviewSchemas (book : FieldSpec) : Entries CollectionSchema :=
  Entries.ofList [
    ("Review", ⟨some "reviews", Entries.ofList [
      ("book", book), ("book.author", .reference (some "Author"))]⟩),
    ("Book", ⟨some "books", Entries.empty⟩),
    ("Author", ⟨some "authors", Entries.ofList [("mentor", .reference (some "Author"))]⟩)]

theorem joins_read_declared_fields_mentor :
    ∃ front back, (Query.ofEmbeds ["book.author.mentor"]).embedStages
        (.ofSchemas (reviewSchemas .plain)) ⟨"Review", "reviews"⟩ (some "rows") [] =
          .ok (front ++ .lookup (Join.byId "authors" "rows.book.author.mentor") :: back) ∧
      ∃ path boundary owner field source,
        Join.byId "authors" "rows.book.author.mentor" =
            Join.byId source.physicalName (Path.qualify path (some "rows")) ∧
          LastHop (reviewSchemas .plain) ⟨"Review", "reviews"⟩ path boundary owner field source ∧
          (Nearest (JoinedIn (some "rows") front) path boundary ↔
            Uppermost (reviewSchemas .plain) owner.name field) := by
  have hstages : (Query.ofEmbeds ["book.author.mentor"]).embedStages
      (.ofSchemas (reviewSchemas .plain)) ⟨"Review", "reviews"⟩ (some "rows") [] =
        .ok ([.lookup (Join.byId "authors" "rows.book.author"), .setFirst ["rows.book.author"]] ++
          .lookup (Join.byId "authors" "rows.book.author.mentor") ::
            [.setFirst ["rows.book.author.mentor"]]) := rfl
  exact ⟨_, _, hstages, joins_read_declared_fields _ _ _ _ _ _ _ hstages⟩

/-- The book takes the place of the copy before the author is read, and no field of a book
is a reference. -/
theorem author_read_from_joined_book :
    ∃ front back, (Query.ofEmbeds ["book.author"]).embedStages
        (.ofSchemas (reviewSchemas (.reference (some "Book")))) ⟨"Review", "reviews"⟩ none [] =
          .ok (front ++ .lookup (Join.byId "authors" "book.author") :: back) ∧
      ¬∃ path boundary owner field source,
        Join.byId "authors" "book.author" =
            Join.byId source.physicalName (Path.qualify path none) ∧
          LastHop (reviewSchemas (.reference (some "Book"))) ⟨"Review", "reviews"⟩ path boundary
            owner field source ∧
          Nearest (JoinedIn none front) path boundary := by
  refine ⟨[.lookup (Join.byId "books" "book"), .setFirst ["book"]],
    [.setFirst ["book.author"]], rfl, ?_⟩
  rintro ⟨path, boundary, owner, field, source, hjoin, hhop, hnearest⟩
  obtain rfl : "book.author" = path := congrArg Join.target hjoin
  have hbook : ∀ other, JoinedIn none [.lookup (Join.byId "books" "book"), .setFirst ["book"]]
      other ↔ other = "book" := by
    intro other
    simp [JoinedIn, Pipeline.joins, Stage.join?, Join.byId]
  cases boundary with
  | none =>
      have hbegins : Path.Begins "book" "book.author" := by
        rw [Path.Begins]
        decide
      have hdepth := hnearest.longest "book" ((hbook _).mpr rfl) hbegins (by decide)
      exact absurd (Path.depth_pos "book") (Nat.not_lt_of_le hdepth)
  | some nearest =>
      obtain rfl := (hbook nearest).mp (hnearest.above nearest rfl).1
      cases hhop.holds
      obtain ⟨schema, target, hschema, hfield, _⟩ := hhop.leads
      cases hschema
      cases hfield

end Embed

end QueryPipeline
