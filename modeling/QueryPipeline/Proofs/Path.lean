import QueryPipeline.Embed.Level

namespace QueryPipeline.Path

def Begins (initial path : String) : Prop :=
  segments initial <+: segments path

/-- `inner` goes on, after a dot, where `outer` ends. -/
def Contains (outer inner : String) : Prop :=
  ∃ rest, inner = outer ++ "." ++ rest

def deepest (paths : List String) : Nat :=
  (paths.map depth).foldr max 0

theorem deepest_cons (first : String) (rest : List String) :
    deepest (first :: rest) = max (depth first) (deepest rest) := rfl

theorem depth_pos (path : String) : 0 < depth path :=
  List.length_pos_iff.mpr (segments_ne_nil path)

theorem join_singleton (segment : String) : join [segment] = segment :=
  String.intercalate_singleton

theorem segments_join_of_subset {path : String} {parts : List String} (hparts : parts ≠ [])
    (h : parts ⊆ segments path) : segments (join parts) = parts :=
  segments_join hparts fun _ hpart => dot_notMem_segment (h hpart)

theorem segments_append_dot (front back : String) :
    segments (front ++ "." ++ back) = segments front ++ segments back := by
  have hjoin : join (segments front ++ segments back) = front ++ "." ++ back := by
    rw [join, String.intercalate_append_of_ne_nil (segments_ne_nil front)
      (segments_ne_nil back), ← join, ← join, join_segments, join_segments]
  rw [← hjoin]
  apply segments_join
  · simp [segments_ne_nil]
  · intro part hpart
    rcases List.mem_append.mp hpart with hpart | hpart
    · exact dot_notMem_segment hpart
    · exact dot_notMem_segment hpart

theorem depth_append_dot (front back : String) :
    depth (front ++ "." ++ back) = depth front + depth back := by
  rw [depth, segments_append_dot, List.length_append, depth, depth]

theorem Contains.depth_lt {outer inner : String} (h : Contains outer inner) :
    depth outer < depth inner := by
  obtain ⟨rest, rfl⟩ := h
  have hrest := depth_pos rest
  rw [depth_append_dot]
  omega

theorem not_contains_self (path : String) : ¬Contains path path :=
  fun h => Nat.lt_irrefl _ h.depth_lt

theorem Begins.refl (path : String) : Begins path path :=
  List.prefix_refl _

theorem Begins.trans {first second third : String} (hfirst : Begins first second)
    (hsecond : Begins second third) : Begins first third :=
  List.IsPrefix.trans hfirst hsecond

theorem Begins.depth_le {initial path : String} (h : Begins initial path) :
    depth initial ≤ depth path :=
  List.IsPrefix.length_le h

theorem Begins.eq_of_depth_le {initial path : String} (h : Begins initial path)
    (hdepth : depth path ≤ depth initial) : initial = path :=
  segments_inj (List.IsPrefix.eq_of_length_le h hdepth)

theorem Begins.depth_lt {initial path : String} (h : Begins initial path)
    (hproper : initial ≠ path) : depth initial < depth path := by
  apply Nat.lt_of_not_le
  intro hle
  exact hproper (h.eq_of_depth_le hle)

theorem exists_parent {path : String} (h : 1 < depth path) :
    ∃ parent, segments parent = (segments path).dropLast := by
  refine ⟨join (segments path).dropLast, segments_join_of_subset ?_ (List.dropLast_subset _)⟩
  rw [← List.length_pos_iff, List.length_dropLast]
  exact Nat.sub_pos_of_lt h

theorem qualify_inj {left right : String} {base : Option String}
    (h : qualify left base = qualify right base) : left = right := by
  cases base with
  | none => exact h
  | some base =>
      by_cases hbase : base = ""
      · simpa [hbase] using h
      · rw [qualify_some hbase, qualify_some hbase] at h
        exact String.append_right_inj (base ++ ".") |>.mp h

theorem Contains.of_qualify {outer inner : String} {base : Option String}
    (h : Contains (qualify outer base) (qualify inner base)) : Contains outer inner := by
  cases base with
  | none => exact h
  | some base =>
      by_cases hbase : base = ""
      · simpa [hbase] using h
      · obtain ⟨rest, hrest⟩ := h
        refine ⟨rest, String.append_right_inj (base ++ ".") |>.mp ?_⟩
        rw [← qualify_some hbase, hrest, qualify_some hbase]
        simp only [String.append_assoc]

theorem qualify_ne_base {base : String} (hbase : base ≠ "") (path : String) :
    qualify path (some base) ≠ base := by
  intro h
  exact not_contains_self base ⟨path, by rw [← qualify_some hbase, h]⟩

theorem getElem?_pathPrefixes {source path : String} {index : Nat} :
    (Embed.pathPrefixes source)[index]? = some path ↔
      Begins path source ∧ depth path = index + 1 := by
  rw [Embed.pathPrefixes, List.getElem?_map, getElem?_prefixes]
  constructor
  · intro h
    split at h
    · rename_i hindex
      have hpath : join ((segments source).take (index + 1)) = path := by simpa using h
      have hsegments : segments path = (segments source).take (index + 1) := by
        rw [← hpath, segments_join_take (Nat.succ_pos index)]
      refine ⟨?_, ?_⟩
      · rw [Begins, hsegments]
        exact List.take_prefix _ _
      · rw [depth, hsegments, List.length_take]
        omega
    · simp at h
  · rintro ⟨hbegins, hdepth⟩
    have hlength : (segments path).length = index + 1 := hdepth
    have hle : (segments path).length ≤ (segments source).length := hbegins.length_le
    rw [if_pos (by omega), ← hlength, ← List.prefix_iff_eq_take.mp hbegins]
    simp [join_segments]

theorem exists_initial {source : String} {index : Nat} (h : index < depth source) :
    ∃ initial, Begins initial source ∧ depth initial = index + 1 := by
  rw [← Embed.length_pathPrefixes] at h
  exact ⟨_, getElem?_pathPrefixes.mp (List.getElem?_eq_getElem h)⟩

theorem lt_deepest_iff {paths : List String} {n : Nat} :
    n < deepest paths ↔ ∃ path ∈ paths, n < depth path := by
  induction paths with
  | nil => simp [deepest]
  | cons first rest ih =>
      have hmax : n < deepest (first :: rest) ↔ n < depth first ∨ n < deepest rest := by
        rw [deepest_cons]
        omega
      rw [hmax, ih]
      simp

theorem deepest_congr {left right : List String} (h : ∀ path, path ∈ left ↔ path ∈ right) :
    deepest left = deepest right := by
  apply Nat.le_antisymm
  · apply Nat.le_of_not_lt
    intro hlt
    obtain ⟨path, hpath, hdepth⟩ := lt_deepest_iff.mp hlt
    exact Nat.lt_irrefl _ (lt_deepest_iff.mpr ⟨path, (h path).mp hpath, hdepth⟩)
  · apply Nat.le_of_not_lt
    intro hlt
    obtain ⟨path, hpath, hdepth⟩ := lt_deepest_iff.mp hlt
    exact Nat.lt_irrefl _ (lt_deepest_iff.mpr ⟨path, (h path).mpr hpath, hdepth⟩)

end QueryPipeline.Path
