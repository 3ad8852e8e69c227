import QueryPipeline.Text.Split

namespace QueryPipeline.Path

/-! Dotted paths.  A path is text, and its segments are what the dots separate,
so the empty path has one empty segment. -/

def segments (path : String) : List String :=
  Text.split '.' path

def join (segments : List String) : String :=
  ".".intercalate segments

def depth (path : String) : Nat :=
  (segments path).length

/-- The non-empty initial runs of a list, shortest first. -/
def prefixes : List α → List (List α)
  | [] => []
  | first :: rest => [first] :: (prefixes rest).map (first :: ·)

/-- The path as seen from outside `base`; an empty base is no base. -/
def qualify (path : String) : (base : Option String) → String
  | none => path
  | some base => if base = "" then path else base ++ "." ++ path

theorem segments_ne_nil (path : String) : segments path ≠ [] :=
  Text.split_ne_nil '.' path

theorem join_segments (path : String) : join (segments path) = path :=
  Text.intercalate_split '.' path

theorem segments_join {parts : List String} (hparts : parts ≠ [])
    (hdot : ∀ part ∈ parts, '.' ∉ part.toList) :
    segments (join parts) = parts :=
  Text.split_intercalate hparts hdot

theorem segments_inj {left right : String} (h : segments left = segments right) :
    left = right := by
  rw [← join_segments left, ← join_segments right, h]

@[simp] theorem length_prefixes (items : List α) :
    (prefixes items).length = items.length := by
  induction items with
  | nil => rfl
  | cons _ _ ih => simp [prefixes, ih]

theorem mem_prefixes {run items : List α} :
    run ∈ prefixes items ↔ run ≠ [] ∧ run <+: items := by
  induction items generalizing run with
  | nil => simp [prefixes]
  | cons first rest ih =>
      cases run with
      | nil => simp [prefixes]
      | cons head tail =>
          simp only [prefixes, List.mem_cons, List.mem_map, ih, List.cons_prefix_cons]
          constructor
          · rintro (h | ⟨initial, ⟨_, hinitial⟩, h⟩)
            · cases h
              simp
            · cases h
              exact ⟨by simp, rfl, hinitial⟩
          · rintro ⟨_, rfl, htail⟩
            cases tail with
            | nil => exact .inl rfl
            | cons second others => exact .inr ⟨_, ⟨by simp, htail⟩, rfl⟩

theorem getElem?_prefixes (items : List α) (index : Nat) :
    (prefixes items)[index]? =
      if index < items.length then some (items.take (index + 1)) else none := by
  induction items generalizing index with
  | nil => simp [prefixes]
  | cons first rest ih =>
      cases index with
      | zero => simp [prefixes]
      | succ index =>
          rw [prefixes, List.getElem?_cons_succ, List.getElem?_map, ih]
          by_cases h : index < rest.length <;> simp [h]

theorem dot_notMem_segment {path segment : String} (h : segment ∈ segments path) :
    '.' ∉ segment.toList :=
  Text.notMem_of_mem_split h

theorem segments_join_take {path : String} {count : Nat} (h : 0 < count) :
    segments (join ((segments path).take count)) = (segments path).take count := by
  apply segments_join
  · simp only [ne_eq, List.take_eq_nil_iff, segments_ne_nil, or_false]
    omega
  · exact fun part hpart => dot_notMem_segment (List.mem_of_mem_take hpart)

@[simp] theorem qualify_none (path : String) : qualify path none = path := rfl

@[simp] theorem qualify_empty (path : String) : qualify path (some "") = path := rfl

theorem qualify_some {base : String} (h : base ≠ "") (path : String) :
    qualify path (some base) = base ++ "." ++ path := by
  simp [qualify, h]

end QueryPipeline.Path
