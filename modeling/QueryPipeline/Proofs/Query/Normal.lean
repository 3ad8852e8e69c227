import QueryPipeline.Proofs.Query.Normalizes

namespace QueryPipeline.Query

variable {query normal : Query} {maxDepth : Int}

/-- A reserved key is left out, or its value was checked. -/
structure Normal (maxDepth : Int) (query : Query) : Prop where
  embed : query.value embedKey = .null ∨ ∃ paths : List String,
    query.value embedKey = Value.texts paths ∧ ∀ path ∈ paths, Path.depth path ≤ maxDepth
  sort : query.value sortKey = .null ∨ ∃ criteria : List String,
    query.value sortKey = Value.texts criteria
  skip : query.value skipKey = .null ∨ ∃ n, query.value skipKey = .int n ∧ minSkip ≤ n
  limit : query.value limitKey = .null ∨ ∃ n, query.value limitKey = .int n ∧ minLimit ≤ n

@[simp] theorem value_put_self (query : Query) (key : String) (value : Value) :
    Query.value (query.put key value) key = value := by
  rw [Query.value, Entries.get?_put_self, Option.getD_some]

theorem value_put_of_ne (query : Query) {key other : String} (value : Value)
    (h : other ≠ key) : Query.value (query.put key value) other = query.value other := by
  rw [Query.value, Entries.get?_put_of_ne query value h, Query.value]

theorem exists_paths_of_revises {key : String} {complaint : Complaint} {Fits : String → Prop}
    {arranged : List String → List String} (hsubset : ∀ paths, arranged paths ⊆ paths)
    (h : (pathRule key complaint Fits arranged).Revises query normal) :
    normal.value key = .null ∨ ∃ paths : List String,
      normal.value key = Value.texts paths ∧ ∀ path ∈ paths, Fits path := by
  rcases h.value_eq with ⟨_, hnull⟩ | ⟨texts, _, hfits, hvalue⟩
  · exact .inl hnull
  · refine .inr ⟨_, hvalue, fun path hpath => ?_⟩
    obtain ⟨s, hs, rfl⟩ := List.mem_map.mp (hsubset _ hpath)
    exact (hfits s hs).2

theorem exists_int_of_revises {key : String} {minimum : Int}
    (h : (integerRule key minimum).Revises query normal) :
    normal.value key = .null ∨ ∃ n, normal.value key = .int n ∧ minimum ≤ n := by
  rcases h.value_eq with ⟨_, hnull⟩ | ⟨n, _, hminimum, hvalue⟩
  · exact .inl hnull
  · exact .inr ⟨n, hvalue, hminimum⟩

theorem normal_of_normalize (h : query.normalize maxDepth = .ok normal) :
    normal.Normal maxDepth := by
  obtain ⟨hembed, hsort, hskip, hlimit⟩ :=
    forall_mem_rules_iff.mp (normalize_eq_ok_iff.mp h).revises
  refine ⟨?_, ?_, exists_int_of_revises hskip, exists_int_of_revises hlimit⟩
  · exact exists_paths_of_revises (fun _ _ hpath => List.mem_eraseDups.mp hpath) hembed
  · refine (exists_paths_of_revises (fun _ => List.Subset.refl _) hsort).imp_right ?_
    rintro ⟨criteria, hvalue, _⟩
    exact ⟨criteria, hvalue⟩

theorem Normal.depth_le {paths : List String} (h : query.Normal maxDepth)
    (hpaths : query.embedPaths = .ok paths) : ∀ path ∈ paths, Path.depth path ≤ maxDepth := by
  obtain ⟨given, htexts, hdepth⟩ : ∃ given : List String,
      (query.value embedKey).asList = given.map .text ∧
        ∀ path ∈ given, Path.depth path ≤ maxDepth := by
    rcases h.embed with hnull | ⟨given, hgiven, hdepth⟩
    · exact ⟨[], by rw [hnull]; rfl, nofun⟩
    · exact ⟨given, by rw [hgiven]; rfl, hdepth⟩
  rw [embedPaths_of_texts htexts, Except.ok.injEq] at hpaths
  intro path hpath
  rw [← hpaths, List.mem_eraseDups] at hpath
  exact hdepth path hpath

theorem Normal.skipStages (h : query.Normal maxDepth) :
    query.skipStages = [] ∨ ∃ n, query.skipStages = [.skip (.int n)] ∧ minSkip ≤ n := by
  rw [Query.skipStages]
  rcases h.skip with hnull | ⟨n, hvalue, hle⟩
  · exact .inl (by rw [hnull])
  · exact .inr ⟨n, by rw [hvalue], hle⟩

theorem Normal.limitStages (h : query.Normal maxDepth) :
    query.limitStages = [] ∨ ∃ n, query.limitStages = [.limit (.int n)] ∧ minLimit ≤ n := by
  rw [Query.limitStages]
  rcases h.limit with hnull | ⟨n, hvalue, hle⟩
  · exact .inl (by rw [hnull])
  · exact .inr ⟨n, by rw [hvalue], hle⟩

end QueryPipeline.Query
