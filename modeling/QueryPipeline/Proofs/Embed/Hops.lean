import QueryPipeline.Embed.Walk
import QueryPipeline.Proofs.Outcome
import QueryPipeline.Proofs.Path

namespace QueryPipeline.Embed

/-- `run` is the longest run of the segments `run ++ rest` that is a field of `current`.
It is empty where the first segment is none. -/
structure FieldRun (registry : Registry) (current : Collection)
    (run rest : List String) : Prop where
  isField : ∀ initial, initial ≠ [] → initial <+: run →
    registry.hasField current.name (Path.join initial) = true
  longest : ∀ next, rest.head? = some next →
    registry.hasField current.name (Path.join (run ++ [next])) = false

structure Hop (registry : Registry) (current : Collection) (run rest : List String)
    (target : Collection) : Prop extends FieldRun registry current run rest where
  nonempty : run ≠ []
  follows : follow registry current (Path.join run) = .ok target

/-- Somewhere along `segments` the walk from `root` has just reached a collection, with
`done` behind it and `rest` ahead. -/
inductive Passes (registry : Registry) (root : Collection) (segments : List String) :
    List String → Collection → List String → Prop
  | start : Passes registry root segments [] root segments
  | hop (passed : Passes registry root segments done current (run ++ rest))
      (next : Hop registry current run rest target) :
      Passes registry root segments (done ++ run) target rest

variable {registry : Registry} {root current target : Collection}
  {segments done run rest : List String}

theorem walkFrom_cons_of_field {next : String}
    (h : registry.hasField current.name (Path.join (run ++ [next])) = true) :
    walkFrom registry current done run (next :: rest) =
      walkFrom registry current done (run ++ [next]) rest := by
  rw [walkFrom.eq_def]
  exact if_pos h

theorem walkFrom_nil_cons_of_not_field {next : String}
    (h : registry.hasField current.name next = false) :
    walkFrom registry current done [] (next :: rest) = .error ⟨done ++ [next], .notFound⟩ := by
  rw [walkFrom.eq_def]
  exact if_neg (by simp [Path.join_singleton, h])

theorem walkFrom_append {more : List String}
    (h : ∀ initial, initial ≠ [] → initial <+: more →
      registry.hasField current.name (Path.join (run ++ initial)) = true) :
    walkFrom registry current done run (more ++ rest) =
      walkFrom registry current done (run ++ more) rest := by
  induction more generalizing run with
  | nil => rw [List.nil_append, List.append_nil]
  | cons next others ih =>
      have hnext : registry.hasField current.name (Path.join (run ++ [next])) = true :=
        h [next] (by simp) (by simp)
      rw [List.cons_append, walkFrom_cons_of_field hnext, ih, List.append_assoc,
        List.singleton_append]
      intro initial _ hinitial
      rw [List.append_assoc, List.singleton_append]
      exact h (next :: initial) (by simp) (List.cons_prefix_cons.mpr ⟨rfl, hinitial⟩)

theorem FieldRun.walkFrom_eq (h : FieldRun registry current run rest) :
    walkFrom registry current done [] (run ++ rest) =
      walkFrom registry current done run rest := by
  rw [walkFrom_append (by simpa using h.isField), List.nil_append]

theorem exists_fieldRun (registry : Registry) (current : Collection)
    (segments : List String) :
    ∃ run rest, segments = run ++ rest ∧ FieldRun registry current run rest := by
  suffices h : ∀ read : List String,
      (∀ initial, initial ≠ [] → initial <+: read →
        registry.hasField current.name (Path.join initial) = true) →
      ∃ run rest, read ++ segments = run ++ rest ∧ FieldRun registry current run rest by
    exact h [] fun initial hne hinitial => absurd (List.prefix_nil.mp hinitial) hne
  induction segments with
  | nil => exact fun read hread => ⟨read, [], rfl, hread, by simp⟩
  | cons next others ih =>
      intro read hread
      cases hfield : registry.hasField current.name (Path.join (read ++ [next])) with
      | false => exact ⟨read, next :: others, rfl, hread, by simpa using hfield⟩
      | true =>
          have hlonger : ∀ initial, initial ≠ [] → initial <+: read ++ [next] →
              registry.hasField current.name (Path.join initial) = true := by
            intro initial hne hinitial
            rcases List.prefix_concat_iff.mp hinitial with rfl | hinitial
            · exact hfield
            · exact hread initial hne hinitial
          obtain ⟨run, rest, heq, hrun⟩ := ih (read ++ [next]) hlonger
          exact ⟨run, rest, by simpa using heq, hrun⟩

theorem FieldRun.walkFrom_notFound {next : String}
    (h : FieldRun registry current [] (next :: rest)) :
    walkFrom registry current done [] (next :: rest) = .error ⟨done ++ [next], .notFound⟩ := by
  have hnext := h.longest next rfl
  rw [List.nil_append, Path.join_singleton] at hnext
  exact walkFrom_nil_cons_of_not_field hnext

theorem FieldRun.walkFrom_follow (h : FieldRun registry current run rest)
    (hrun : run ≠ []) :
    walkFrom registry current done run rest =
      match follow registry current (Path.join run) with
      | .error reason => .error ⟨done ++ run, reason⟩
      | .ok target => walkFrom registry target (done ++ run) [] rest := by
  obtain ⟨first, others, rfl⟩ := List.exists_cons_of_ne_nil hrun
  cases rest with
  | nil =>
      rw [walkFrom, hop]
      cases follow registry current (Path.join (first :: others)) <;> rfl
  | cons next rest =>
      have hnext := h.longest next rfl
      rw [walkFrom.eq_def]
      simp only [hnext, hop]
      cases follow registry current (Path.join (first :: others)) with
      | error reason => rfl
      | ok target =>
          cases hfield : registry.hasField target.name next with
          | false => simp [hfield, walkFrom_nil_cons_of_not_field hfield]
          | true =>
              have hread : registry.hasField target.name (Path.join ([] ++ [next])) = true := by
                rw [List.nil_append, Path.join_singleton, hfield]
              simp [hfield, walkFrom_cons_of_field hread]

theorem Hop.walkFrom_eq (h : Hop registry current run rest target) :
    walkFrom registry current done [] (run ++ rest) =
      walkFrom registry target (done ++ run) [] rest := by
  rw [h.toFieldRun.walkFrom_eq, h.toFieldRun.walkFrom_follow h.nonempty, h.follows]

theorem exists_hop_of_walkFrom_ok (hsegments : segments ≠ [])
    (h : walkFrom registry current done [] segments = .ok target) :
    ∃ run rest middle, segments = run ++ rest ∧ Hop registry current run rest middle := by
  obtain ⟨run, rest, rfl, hrun⟩ := exists_fieldRun registry current segments
  refine ⟨run, rest, ?_⟩
  cases run with
  | nil =>
      obtain ⟨next, others, rfl⟩ := List.exists_cons_of_ne_nil hsegments
      rw [List.nil_append, hrun.walkFrom_notFound] at h
      cases h
  | cons first others =>
      rw [hrun.walkFrom_eq, hrun.walkFrom_follow (by simp)] at h
      cases hfollow : follow registry current (Path.join (first :: others)) with
      | error reason =>
          rw [hfollow] at h
          cases h
      | ok middle => exact ⟨middle, rfl, ⟨hrun, by simp, hfollow⟩⟩

theorem Passes.done_append (h : Passes registry root segments done current rest) :
    done ++ rest = segments := by
  induction h with
  | start => rfl
  | hop _ _ ih => rw [List.append_assoc, ih]

theorem Passes.walkFrom_eq (h : Passes registry root segments done current rest) :
    walkFrom registry root [] [] segments = walkFrom registry current done [] rest := by
  induction h with
  | start => rfl
  | hop _ next ih => rw [ih, next.walkFrom_eq]

theorem Passes.cut (h : Passes registry root segments done current rest)
    {kept : List String} (hkept : kept <+: rest) :
    Passes registry root (done ++ kept) done current kept := by
  induction h generalizing kept with
  | start => exact .start
  | @hop done current run rest target _ next ih =>
      have hpassed := @ih (run ++ kept) (List.prefix_append_right_inj run |>.mpr hkept)
      rw [← List.append_assoc] at hpassed
      refine .hop hpassed ⟨⟨next.isField, ?_⟩, next.nonempty, next.follows⟩
      -- The segment that ends the run is cut off with all that follows, or it stays.
      intro segment hsegment
      apply next.longest
      obtain ⟨others, rfl⟩ := hkept
      rw [List.head?_append, hsegment, Option.some_or]

theorem passes_of_walkFrom_ok {behind : List String}
    (hpassed : Passes registry root segments done current rest)
    (h : walkFrom registry current behind [] rest = .ok target) :
    Passes registry root segments segments target [] := by
  induction hlength : rest.length using Nat.strongRecOn
    generalizing done behind current rest with
  | ind length ih =>
      by_cases hrest : rest = []
      · subst hrest
        have hdone := hpassed.done_append
        rw [List.append_nil] at hdone
        rw [walkFrom] at h
        cases h
        exact hdone ▸ hpassed
      · obtain ⟨run, others, middle, rfl, hhop⟩ := exists_hop_of_walkFrom_ok hrest h
        have hshorter : others.length < length := by
          have hrun := List.length_pos_iff.mpr hhop.nonempty
          rw [List.length_append] at hlength
          omega
        exact ih _ hshorter (.hop hpassed hhop) (hhop.walkFrom_eq ▸ h) rfl

theorem resolve_eq_ok_iff {path : String} :
    resolve registry root path = .ok target ↔
      Passes registry root (Path.segments path) (Path.segments path) target [] := by
  constructor
  · exact passes_of_walkFrom_ok .start
  · intro h
    rw [resolve, h.walkFrom_eq, walkFrom]

/-- The walk along `path` hops right after `boundary`, and goes on from `reached`. -/
def Boundary (registry : Registry) (root : Collection) (path boundary : String)
    (reached : Collection) : Prop :=
  ∃ rest, Passes registry root (Path.segments path) (Path.segments boundary) reached rest

variable {path boundary : String} {reached : Collection}

theorem Boundary.begins (h : Boundary registry root path boundary reached) :
    Path.Begins boundary path := by
  obtain ⟨rest, hpassed⟩ := h
  exact ⟨rest, hpassed.done_append⟩

theorem Boundary.resolve_eq (h : Boundary registry root path boundary reached) :
    resolve registry root boundary = .ok reached := by
  obtain ⟨rest, hpassed⟩ := h
  have hcut := hpassed.cut (List.nil_prefix (l := rest))
  rw [List.append_nil] at hcut
  exact resolve_eq_ok_iff.mpr hcut

theorem boundary_self_iff :
    Boundary registry root path path target ↔ resolve registry root path = .ok target := by
  constructor
  · exact Boundary.resolve_eq
  · intro h
    exact ⟨[], resolve_eq_ok_iff.mp h⟩

end QueryPipeline.Embed
