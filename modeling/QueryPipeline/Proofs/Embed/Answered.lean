import QueryPipeline.Fault
import QueryPipeline.Proofs.Path

namespace QueryPipeline

/-! The walk and the levels in terms of questions that may have no answer: what kind a
field is of, where a collection is stored, which level stands at an index.  No question is
asked before it is known to have one. -/

namespace Registry

def askCollection (registry : Registry) (name : String) :
    Except Unknown (Option Collection) :=
  if registry.collections.contains name then
    (registry.physicalName name).map fun stored => some ⟨name, stored⟩
  else .ok none

theorem askCollection_eq (registry : Registry) (name : String) :
    registry.askCollection name = .ok (registry.collection? name) := by
  rw [askCollection, physicalName, collection?, Entries.contains]
  cases registry.collections.get? name <;> rfl

end Registry

namespace Embed

variable {registry : Registry} {current : Collection} {done run : List String}

def askFollow (registry : Registry) (current : Collection) (field : String) :
    Except Unknown (Except Reason Collection) := do
  match ← registry.fieldKind current.name field with
  | .plain => return .error .notReference
  | .reference =>
      match registry.target? current.name field with
      | none => return .error .noTarget
      | some target =>
          if target = "" then return .error .noTarget
          else
            match ← registry.askCollection target with
            | none => return .error .targetNotRegistered
            | some next => return .ok next

def askHop (registry : Registry) (current : Collection) (done run : List String) :
    Except Unknown (Except Obstacle Collection) :=
  (askFollow registry current (Path.join run)).map fun outcome =>
    outcome.mapError fun reason => ⟨done ++ run, reason⟩

def askFrom (registry : Registry) (current : Collection) (done run : List String) :
    List String → Except Unknown (Except Obstacle Collection)
  | [] =>
      match run with
      | [] => .ok (.ok current)
      | _ :: _ => askHop registry current done run
  | next :: rest =>
      if registry.hasField current.name (Path.join (run ++ [next])) then
        askFrom registry current done (run ++ [next]) rest
      else
        match run with
        | [] => .ok (.error ⟨done ++ [next], .notFound⟩)
        | _ :: _ => do
            match ← askHop registry current done run with
            | .error obstacle => return .error obstacle
            | .ok target =>
                if registry.hasField target.name next then
                  askFrom registry target (done ++ run) [next] rest
                else return .error ⟨done ++ run ++ [next], .notFound⟩

def askResolve (registry : Registry) (root : Collection) (path : String) :
    Except Unknown (Except Obstacle Collection) :=
  askFrom registry root [] [] (Path.segments path)

theorem askFollow_eq {field : String} (h : registry.hasField current.name field = true) :
    askFollow registry current field = .ok (follow registry current field) := by
  rw [Registry.hasField] at h
  obtain ⟨spec, hspec⟩ := Option.isSome_iff_exists.mp h
  rw [askFollow, follow, Registry.fieldKind, Registry.target?, hspec]
  cases spec with
  | plain => rfl
  | reference target =>
      cases target with
      | none => rfl
      | some target =>
          by_cases hempty : target = ""
          · simp [hempty, FieldSpec.kind, FieldSpec.target?, bind, Except.bind, pure, Except.pure]
          · simp only [FieldSpec.kind, FieldSpec.target?, bind, Except.bind, pure, Except.pure,
              Option.bind, hempty, if_false, Registry.askCollection_eq]
            cases registry.collection? target <;> rfl

theorem askHop_eq (h : registry.hasField current.name (Path.join run) = true) :
    askHop registry current done run = .ok (hop registry current done run) := by
  rw [askHop, askFollow_eq h, hop]
  rfl

theorem askFrom_eq (h : run ≠ [] → registry.hasField current.name (Path.join run) = true)
    (segments : List String) :
    askFrom registry current done run segments =
      .ok (walkFrom registry current done run segments) := by
  induction segments generalizing current done run with
  | nil =>
      cases run with
      | nil => rfl
      | cons first others =>
          rw [askFrom, walkFrom]
          exact askHop_eq (h (by simp))
  | cons next rest ih =>
      rw [askFrom.eq_def, walkFrom.eq_def]
      by_cases hfield : registry.hasField current.name (Path.join (run ++ [next])) = true
      · simp only [hfield, if_true]
        exact ih fun _ => hfield
      · simp only [hfield]
        cases run with
        | nil => rfl
        | cons first others =>
            simp only [askHop_eq (h (by simp)), bind, Except.bind]
            cases hop registry current done (first :: others) with
            | error obstacle => rfl
            | ok target =>
                by_cases hnext : registry.hasField target.name next = true
                · simp only [hnext, if_true]
                  exact ih fun _ => by rw [Path.join_singleton, hnext]
                · simp only [hnext]
                  rfl

theorem askResolve_eq (registry : Registry) (root : Collection) (path : String) :
    askResolve registry root path = .ok (resolve registry root path) :=
  askFrom_eq (fun h => absurd rfl h) _

/-- Puts a path into the level at an index, a new one where the index is the next. -/
def placeAt (index : Nat) (path : String) (levels : List Level) :
    Except Misuse (List Level) :=
  let grown := if index = levels.length then levels ++ [[]] else levels
  match grown[index]? with
  | some level => .ok (grown.set index (insertUnique path level))
  | none => .error .noElements

def placeFrom : Nat → List String → List Level → Except Misuse (List Level)
  | _, [], levels => .ok levels
  | index, path :: deeper, levels => do
      let levels ← placeAt index path levels
      placeFrom (index + 1) deeper levels

def indexedLevels (paths : List String) : Except Misuse (List Level) :=
  paths.foldlM (fun known path => placeFrom 0 (pathPrefixes path) known) []

theorem placeAt_length (path : String) (levels : List Level) :
    placeAt levels.length path levels = .ok (levels ++ [[path]]) := by
  simp [placeAt, insertUnique]

theorem placeAt_of_lt {index : Nat} {levels : List Level} (h : index < levels.length)
    (path : String) :
    placeAt index path levels =
      .ok (levels.take index ++ insertUnique path levels[index] :: levels.drop (index + 1)) := by
  have hne : index ≠ levels.length := Nat.ne_of_lt h
  rw [placeAt]
  simp only [hne, if_false, List.getElem?_eq_getElem h, List.set_eq_take_append_cons_drop, h,
    if_true]

theorem exists_placeAt_eq_error_iff {index : Nat} {path : String} {levels : List Level} :
    (∃ misuse, placeAt index path levels = .error misuse) ↔ levels.length < index := by
  rcases Nat.lt_trichotomy index levels.length with hlt | rfl | hgt
  · simp [placeAt_of_lt hlt, Nat.le_of_lt hlt]
  · simp [placeAt_length]
  · have hne : index ≠ levels.length := Nat.ne_of_gt hgt
    simp [placeAt, hne, List.getElem?_eq_none (Nat.le_of_lt hgt), hgt]

theorem placeFrom_eq {index : Nat} {levels : List Level} (h : index ≤ levels.length)
    (paths : List String) :
    placeFrom index paths levels =
      .ok (levels.take index ++ addPrefixes paths (levels.drop index)) := by
  induction paths generalizing index levels with
  | nil => rw [placeFrom, addPrefixes, List.take_append_drop]
  | cons path deeper ih =>
      rw [placeFrom]
      rcases Nat.lt_or_eq_of_le h with hlt | rfl
      · have hsplit : levels.take index ++
            insertUnique path levels[index] :: levels.drop (index + 1) =
              (levels.take index ++ [insertUnique path levels[index]]) ++
                levels.drop (index + 1) := by simp
        have hlength : (levels.take index ++ [insertUnique path levels[index]]).length =
            index + 1 := by simp [List.length_take_of_le h]
        rw [placeAt_of_lt hlt, List.drop_eq_getElem_cons hlt, addPrefixes, hsplit]
        simp only [bind, Except.bind]
        rw [ih (by simp; omega), List.take_left' hlength, List.drop_left' hlength,
          List.append_assoc, List.singleton_append]
      · have hgrown : levels.length + 1 = (levels ++ [[path]]).length := by simp
        rw [placeAt_length, List.take_length, List.drop_length, addPrefixes]
        simp only [bind, Except.bind]
        rw [hgrown, ih (Nat.le_refl _), List.take_length, List.drop_length, List.append_assoc,
          List.singleton_append]

theorem indexedLevels_eq (paths : List String) : indexedLevels paths = .ok (levels paths) := by
  rw [indexedLevels, levels]
  generalize ([] : List Level) = known
  induction paths generalizing known with
  | nil => rfl
  | cons path rest ih =>
      rw [List.foldlM_cons, placeFrom_eq (Nat.zero_le _), List.foldl_cons]
      exact ih _

end Embed

end QueryPipeline
