import QueryPipeline.Proofs.Embed.LongestMatch

namespace QueryPipeline

/-! Where a walk stops short, and why.  The causes are read off the declarations, and the
place from the hops that the walk has made. -/

namespace Registry

def declared? (schemas : Entries CollectionSchema) (owner field : String) : Option FieldSpec := do
  let schema ← schemas.get? owner
  schema.fields.get? field

theorem field?_of_isField {schemas : Entries CollectionSchema} {owner field : String}
    (h : IsField schemas owner field) :
    (ofSchemas schemas).field? owner field =
      some ((declared? schemas owner field).getD .plain) := by
  obtain ⟨schema, hschema, hfield⟩ := h
  have hisSome := contains_expandFields_iff.mpr hfield
  rw [field?_ofSchemas, declared?, hschema, Option.bind_some, Option.bind_eq_bind,
    Option.bind_some]
  rw [get?_expandFields] at hisSome ⊢
  cases hdeclared : schema.fields.get? field with
  | some spec => rfl
  | none =>
      rw [hdeclared, Option.none_or] at hisSome
      rw [Option.none_or, Option.getD_none]
      split at hisSome
      · rename_i hparent
        rw [if_pos hparent]
      · cases hisSome

theorem collection?_ofSchemas_eq_none_iff {schemas : Entries CollectionSchema} {name : String} :
    (ofSchemas schemas).collection? name = none ↔ schemas.get? name = none := by
  rw [collection?, ofSchemas, Entries.get?_mapValues]
  simp

end Registry

namespace Embed

/-- Why a field of the collection named `owner` leads nowhere.  A field that is not declared
itself is the parent of one that is. -/
inductive Hindered (schemas : Entries CollectionSchema) (owner field : String) : Reason → Prop
  | parent (h : Registry.declared? schemas owner field = none) :
      Hindered schemas owner field .notReference
  | plain (h : Registry.declared? schemas owner field = some .plain) :
      Hindered schemas owner field .notReference
  | untargeted (h : Registry.declared? schemas owner field = some (.reference none)) :
      Hindered schemas owner field .noTarget
  | emptyTarget (h : Registry.declared? schemas owner field = some (.reference (some ""))) :
      Hindered schemas owner field .noTarget
  | unregistered
      (h : Registry.declared? schemas owner field = some (.reference (some target)))
      (named : target ≠ "") (missing : schemas.get? target = none) :
      Hindered schemas owner field .targetNotRegistered

/-- How much of the segments ahead is reported: the first one where no run of them is a field,
and else the longest run that is one. -/
inductive Blocked (schemas : Entries CollectionSchema) (owner : String) :
    List String → List String → Reason → Prop
  | unknown (found : LongestMatch schemas owner [] (next :: rest)) :
      Blocked schemas owner (next :: rest) [next] .notFound
  | hindered (found : LongestMatch schemas owner run rest) (nonempty : run ≠ [])
      (cause : Hindered schemas owner (Path.join run) reason) :
      Blocked schemas owner (run ++ rest) run reason

/-- The walk along `path` gets to `boundary`, where the documents of `owner` are read, and no
further: `reported` are the segments that it does not get past. -/
structure Halts (schemas : Entries CollectionSchema) (root : Collection) (path : String)
    (boundary : Option String) (owner : Collection) (reported : List String)
    (reason : Reason) : Prop where
  holds : Holds (.ofSchemas schemas) root boundary owner
  proper : ∀ nearest ∈ boundary, Path.Begins nearest path ∧ nearest ≠ path
  blocked : ∃ hops rest,
    Reaches schemas root (Path.segments path) hops (upTo boundary) owner rest ∧
      Blocked schemas owner.name rest reported reason

variable {schemas : Entries CollectionSchema} {root current owner : Collection}
  {done reported rest : List String} {path field : String} {reason : Reason}
  {obstacle : Obstacle}

theorem follow_eq_error_iff (hfield : Registry.IsField schemas current.name field) :
    follow (.ofSchemas schemas) current field = .error reason ↔
      Hindered schemas current.name field reason := by
  rw [follow, Registry.field?_of_isField hfield]
  constructor
  · intro h
    cases hdeclared : Registry.declared? schemas current.name field with
    | none =>
        rw [hdeclared] at h
        cases h
        exact .parent hdeclared
    | some spec =>
        rw [hdeclared] at h
        cases spec with
        | plain =>
            cases h
            exact .plain hdeclared
        | reference target =>
            cases target with
            | none =>
                cases h
                exact .untargeted hdeclared
            | some target =>
                by_cases hempty : target = ""
                · subst hempty
                  cases h
                  exact .emptyTarget hdeclared
                · cases hnext : (Registry.ofSchemas schemas).collection? target with
                  | some next => simp [hempty, hnext] at h
                  | none =>
                      simp only [Option.getD_some, hempty, if_false, hnext,
                        Except.error.injEq] at h
                      subst h
                      exact .unregistered hdeclared hempty
                        (Registry.collection?_ofSchemas_eq_none_iff.mp hnext)
  · rintro (h | h | h | h | ⟨h, hnamed, hmissing⟩)
    · rw [h]; rfl
    · rw [h]; rfl
    · rw [h]; rfl
    · rw [h]; rfl
    · have hnext := Registry.collection?_ofSchemas_eq_none_iff.mpr hmissing
      simp [h, hnamed, hnext]

theorem Blocked.ahead_ne_nil (h : Blocked schemas owner.name rest reported reason) :
    rest ≠ [] := by
  cases h with
  | unknown => simp
  | hindered _ nonempty _ => simp [nonempty]

theorem Blocked.walkFrom_eq (h : Blocked schemas owner.name rest reported reason)
    (hparts : rest ⊆ Path.segments path) :
    walkFrom (.ofSchemas schemas) owner done [] rest = .error ⟨done ++ reported, reason⟩ := by
  cases h with
  | unknown found => exact (found.fieldRun hparts).walkFrom_notFound
  | hindered found nonempty cause =>
      have hrun := found.fieldRun hparts
      have hfollow := (follow_eq_error_iff (found.isField nonempty)).mpr cause
      rw [hrun.walkFrom_eq, hrun.walkFrom_follow nonempty, hfollow]

theorem Passes.exists_blocked
    (hpassed : Passes (.ofSchemas schemas) root (Path.segments path) done current rest)
    (h : walkFrom (.ofSchemas schemas) current done [] rest = .error obstacle) :
    ∃ reached owner ahead reported,
      Passes (.ofSchemas schemas) root (Path.segments path) reached owner ahead ∧
        Blocked schemas owner.name ahead reported obstacle.reason ∧
        obstacle.segments = reached ++ reported := by
  -- By the segments that are left: either the walk stops here, or a hop takes some of them.
  induction hlength : rest.length using Nat.strongRecOn generalizing done current rest with
  | ind length ih =>
      obtain ⟨run, others, rfl, hrun⟩ := exists_fieldRun (.ofSchemas schemas) current rest
      have hmatch := hrun.longestMatch hpassed.ahead_subset
      by_cases hempty : run = []
      · subst hempty
        cases others with
        | nil =>
            rw [List.append_nil, walkFrom] at h
            cases h
        | cons next others =>
            rw [List.nil_append, hrun.walkFrom_notFound] at h
            cases h
            exact ⟨done, current, _, [next], hpassed, .unknown hmatch, rfl⟩
      · rw [hrun.walkFrom_eq, hrun.walkFrom_follow hempty] at h
        cases hfollow : follow (.ofSchemas schemas) current (Path.join run) with
        | error reason =>
            rw [hfollow] at h
            cases h
            have hcause := (follow_eq_error_iff (hmatch.isField hempty)).mp hfollow
            exact ⟨done, current, _, run, hpassed, .hindered hmatch hempty hcause, rfl⟩
        | ok next =>
            rw [hfollow] at h
            have hshorter : others.length < length := by
              have hpositive := List.length_pos_iff.mpr hempty
              rw [List.length_append] at hlength
              omega
            exact ih _ hshorter (.hop hpassed ⟨hrun, hempty, hfollow⟩) h rfl

theorem resolve_eq_error_iff :
    resolve (.ofSchemas schemas) root path = .error obstacle ↔
      ∃ boundary owner reported, Halts schemas root path boundary owner reported obstacle.reason ∧
        obstacle.segments = upTo boundary ++ reported := by
  constructor
  · intro h
    obtain ⟨reached, owner, rest, reported, hpassed, hblocked, hsegments⟩ :=
      Passes.exists_blocked .start h
    obtain ⟨boundary, rfl, hholds, hproper⟩ := hpassed.exists_boundary hblocked.ahead_ne_nil
    obtain ⟨hops, hreached⟩ := hpassed.exists_reaches
    exact ⟨boundary, owner, reported, ⟨hholds, hproper, hops, rest, hreached, hblocked⟩, hsegments⟩
  · rintro ⟨boundary, owner, reported, ⟨_, _, hops, rest, hreached, hblocked⟩, hsegments⟩
    have hpassed := hreached.passes
    rw [resolve, hpassed.walkFrom_eq, hblocked.walkFrom_eq hpassed.ahead_subset, ← hsegments]

theorem resolveRequested_eq_error_iff {registry : Registry} {requested : List String}
    {failure : Failure} :
    resolveRequested registry root requested path = .error failure ↔
      path ∈ requested ∧ failure.path = path ∧ ∃ obstacle,
        resolve registry root path = .error obstacle ∧
          failure.subPath = Path.join obstacle.segments ∧ failure.reason = obstacle.reason := by
  rw [resolveRequested]
  cases resolve registry root path with
  | ok target => simp
  | error obstacle =>
      by_cases hrequested : path ∈ requested
      · obtain ⟨whole, sub, cause⟩ := failure
        simp [hrequested, eq_comm]
      · simp [hrequested]

theorem not_resolves_iff :
    (∀ target, ¬Resolves schemas root path target) ↔
      ∃ obstacle, resolve (.ofSchemas schemas) root path = .error obstacle := by
  simp only [← resolve_eq_ok_iff_resolves]
  cases resolve (.ofSchemas schemas) root path <;> simp

theorem failures_name_obstacle (schemas : Entries CollectionSchema) (root : Collection)
    (requested : List String) (path : String) :
    ((∃ failure, resolveRequested (.ofSchemas schemas) root requested path = .error failure) ↔
      path ∈ requested ∧ ∀ target, ¬Resolves schemas root path target) ∧
    (path ∉ requested → (∀ target, ¬Resolves schemas root path target) →
      resolveRequested (.ofSchemas schemas) root requested path = .ok none) ∧
    (∀ other, (path ∈ other ↔ path ∈ requested) →
      resolveRequested (.ofSchemas schemas) root other path =
        resolveRequested (.ofSchemas schemas) root requested path) ∧
    ∀ failure, resolveRequested (.ofSchemas schemas) root requested path = .error failure ↔
      path ∈ requested ∧ failure.path = path ∧ ∃ boundary owner reported,
        Halts schemas root path boundary owner reported failure.reason ∧
          failure.subPath = Path.join (upTo boundary ++ reported) := by
  refine ⟨?_, ?_, ?_, ?_⟩
  · rw [not_resolves_iff]
    constructor
    · rintro ⟨failure, h⟩
      obtain ⟨hrequested, _, obstacle, hobstacle, _⟩ := resolveRequested_eq_error_iff.mp h
      exact ⟨hrequested, obstacle, hobstacle⟩
    · rintro ⟨hrequested, obstacle, hobstacle⟩
      exact ⟨⟨path, _, _⟩, resolveRequested_eq_error_iff.mpr
        ⟨hrequested, rfl, obstacle, hobstacle, rfl, rfl⟩⟩
  · intro hnot hfails
    obtain ⟨obstacle, hobstacle⟩ := not_resolves_iff.mp hfails
    rw [resolveRequested, hobstacle]
    exact if_neg hnot
  · intro other hother
    rw [resolveRequested, resolveRequested]
    simp only [hother]
  · intro failure
    rw [resolveRequested_eq_error_iff]
    refine and_congr_right fun _ => and_congr_right fun _ => ?_
    constructor
    · rintro ⟨obstacle, hobstacle, hsub, hreason⟩
      obtain ⟨boundary, owner, reported, hhalts, hsegments⟩ := resolve_eq_error_iff.mp hobstacle
      exact ⟨boundary, owner, reported, hreason ▸ hhalts, hsegments ▸ hsub⟩
    · rintro ⟨boundary, owner, reported, hhalts, hsub⟩
      exact ⟨⟨_, failure.reason⟩,
        resolve_eq_error_iff.mpr ⟨boundary, owner, reported, hhalts, rfl⟩, hsub, rfl⟩

theorem failures_name_obstacle_mentor :
    resolveRequested (.ofSchemas (reviewSchemas .plain)) ⟨"Review", "reviews"⟩
        ["book.author.mentor.name"] "book.author.mentor.name" =
      .error ⟨"book.author.mentor.name", "book.author.mentor.name", .notFound⟩ ∧
    resolveRequested (.ofSchemas (reviewSchemas .plain)) ⟨"Review", "reviews"⟩ ["book"]
        "book.author.mentor.name" = .ok none ∧
    ∃ boundary owner reported, Halts (reviewSchemas .plain) ⟨"Review", "reviews"⟩
        "book.author.mentor.name" boundary owner reported .notFound ∧
      "book.author.mentor.name" = Path.join (upTo boundary ++ reported) := by
  obtain ⟨hraises, _, _, hplace⟩ := failures_name_obstacle (reviewSchemas .plain)
    ⟨"Review", "reviews"⟩ ["book.author.mentor.name"] "book.author.mentor.name"
  obtain ⟨_, hsilent, _, _⟩ := failures_name_obstacle (reviewSchemas .plain)
    ⟨"Review", "reviews"⟩ ["book"] "book.author.mentor.name"
  have hfails := (hraises.mp ⟨⟨_, _, _⟩, rfl⟩).2
  obtain ⟨_, _, boundary, owner, reported, hhalts, hsub⟩ :=
    (hplace ⟨"book.author.mentor.name", "book.author.mentor.name", .notFound⟩).mp rfl
  exact ⟨rfl, hsilent (by decide) hfails, boundary, owner, reported, hhalts, hsub⟩

end Embed

end QueryPipeline
