import QueryPipeline.Proofs.Aggregation.Isolated
import QueryPipeline.Proofs.Query.Normalizes
import QueryPipeline.Query.Parameters

namespace QueryPipeline

/-! Queries that are checked more than once.  What passed is a fixed point of the checks, and
passes them as well where deeper paths are allowed. -/

namespace Query

variable {query normal : Query} {maxDepth deeper : Int}

namespace Rule

structure Within (narrow wide : Rule) : Prop where
  key_eq : narrow.key = wide.key
  turns : ∀ {found normal : Value}, narrow.Turns found normal → wide.Turns found normal

def Settles (rule : Rule) : Prop :=
  ∀ found normal, rule.Turns found normal → rule.Turns normal normal

theorem Within.refl (rule : Rule) : rule.Within rule :=
  ⟨rfl, id⟩

theorem Within.revises {narrow wide : Rule} (hwithin : narrow.Within wide)
    (h : narrow.Revises query normal) : wide.Revises query normal := by
  rw [Revises, ← hwithin.key_eq]
  refine h.imp_right ?_
  rintro ⟨value, hturns, hvalue⟩
  exact ⟨value, hwithin.turns hturns, hvalue⟩

theorem Settles.revises {rule : Rule} (hsettles : rule.Settles)
    (h : rule.Revises query normal) : rule.Revises normal normal := by
  rcases h with ⟨hnull, hsame⟩ | ⟨value, hturns, hvalue⟩
  · exact .inl ⟨(value_congr hsame).trans hnull, rfl⟩
  · refine .inr ⟨value, ?_, hvalue⟩
    rw [value_of_get? hvalue]
    exact hsettles _ _ hturns

end Rule

theorem pathRule_within {key : String} {complaint other : Complaint} {Narrow Wide : String → Prop}
    (h : ∀ path, Narrow path → Wide path) (arranged : List String → List String) :
    (pathRule key complaint Narrow arranged).Within (pathRule key other Wide arranged) where
  key_eq := rfl
  turns := by
    rintro found _ ⟨texts, hlists, hfits, rfl⟩
    exact ⟨texts, hlists, fun s hs => ⟨(hfits s hs).1, h _ (hfits s hs).2⟩, rfl⟩

theorem pathRule_settles {key : String} {complaint : Complaint} {Fits : String → Prop}
    {arranged : List String → List String} (hsubset : ∀ paths, arranged paths ⊆ paths)
    (harranged : ∀ paths, arranged (arranged paths) = arranged paths) :
    (pathRule key complaint Fits arranged).Settles := by
  rintro found _ ⟨texts, _, hfits, rfl⟩
  have hpaths : ∀ path ∈ arranged (texts.map Text.trim),
      (Text.trim path = path ∧ Text.NonBlank path) ∧ Fits path := by
    intro path hpath
    obtain ⟨s, hs, rfl⟩ := List.mem_map.mp (hsubset _ hpath)
    obtain ⟨hblank, hfit⟩ := hfits s hs
    rw [Text.nonBlank_iff] at hblank
    exact ⟨⟨Text.trim_trim s, by rwa [Text.nonBlank_iff, Text.trim_trim]⟩, hfit⟩
  rw [pathRule_turns_texts_iff fun path hpath => (hpaths path hpath).1, harranged]
  exact ⟨fun path hpath => (hpaths path hpath).2, rfl⟩

theorem integerRule_settles (key : String) (minimum : Int) : (integerRule key minimum).Settles := by
  rintro found _ ⟨n, _, hminimum, rfl⟩
  exact ⟨n, .int n, hminimum, rfl⟩

theorem Normalizes.within {narrow wide : List Rule} (h : Normalizes narrow query normal)
    (hkeys : narrow.map (·.key) = wide.map (·.key))
    (hwithin : ∀ rule ∈ wide, ∃ other ∈ narrow, other.Within rule) :
    Normalizes wide query normal where
  keys_eq := h.keys_eq
  others := by
    intro key hkey
    refine h.others key fun rule hrule heq => ?_
    have hmem : rule.key ∈ wide.map (·.key) := hkeys ▸ List.mem_map_of_mem hrule
    obtain ⟨other, hother, hsame⟩ := List.mem_map.mp hmem
    exact hkey other hother (hsame.trans heq)
  revises := by
    intro rule hrule
    obtain ⟨other, hother, hother_within⟩ := hwithin rule hrule
    exact hother_within.revises (h.revises other hother)

theorem Normalizes.settled {rules : List Rule} (h : Normalizes rules query normal)
    (hsettles : ∀ rule ∈ rules, rule.Settles) : Normalizes rules normal normal where
  keys_eq := rfl
  others := fun _ _ => rfl
  revises := fun rule hrule => (hsettles rule hrule).revises (h.revises rule hrule)

theorem rules_within (h : maxDepth ≤ deeper) :
    ∀ rule ∈ rules deeper, ∃ other ∈ rules maxDepth, other.Within rule := by
  have hfits : ∀ path, FitsDepth maxDepth path → FitsDepth deeper path :=
    fun path hpath => Int.le_trans hpath h
  intro rule hrule
  rw [rules, List.mem_cons] at hrule
  rcases hrule with rfl | hrest
  · exact ⟨_, List.mem_cons_self, pathRule_within hfits List.eraseDups⟩
  · exact ⟨rule, List.mem_cons_of_mem _ hrest, .refl rule⟩

theorem rules_settle (maxDepth : Int) : ∀ rule ∈ rules maxDepth, rule.Settles := by
  have hsubset : ∀ paths : List String, paths.eraseDups ⊆ paths :=
    fun _ _ hpath => List.mem_eraseDups.mp hpath
  exact forall_mem_rules_iff.mpr ⟨pathRule_settles hsubset eraseDups_eraseDups,
    pathRule_settles (fun _ => List.Subset.refl _) fun _ => rfl,
    integerRule_settles skipKey 0, integerRule_settles limitKey 1⟩

theorem normalize_deeper (h : query.normalize maxDepth = .ok normal) (hdeeper : maxDepth ≤ deeper) :
    query.normalize deeper = .ok normal :=
  normalize_eq_ok_iff.mpr ((normalize_eq_ok_iff.mp h).within rfl (rules_within hdeeper))

theorem normalize_normal (h : query.normalize maxDepth = .ok normal) :
    normal.normalize maxDepth = .ok normal :=
  normalize_eq_ok_iff.mpr ((normalize_eq_ok_iff.mp h).settled (rules_settle maxDepth))

theorem exists_normalize_of_parse {parameters : List (String × Value)}
    (h : parse maxDepth parameters = .ok normal) :
    ∃ query : Query, query.normalize maxDepth = .ok normal := by
  obtain ⟨query, _, hnormal⟩ := bind_eq_ok_iff.mp h
  exact ⟨query, mapError_eq_ok_iff.mp hnormal⟩

end Query

theorem listing_ne_rejected {query normal : Query}
    (h : query.normalize Query.defaultMaxDepth = .ok normal) (registry : Registry)
    (collection : CollectionRef) (rejection : Rejection) :
    listing registry collection query ≠ .error (.rejected rejection) := by
  cases hroot : registry.locate collection with
  | error fault =>
      intro hrejected
      rw [listing, h, hroot] at hrejected
      cases hrejected
      cases collection with
      | resolved found => cases hroot
      | named name =>
          rw [Registry.locate] at hroot
          cases hfound : registry.collection? name <;> simp [hfound] at hroot
  | ok root =>
      rw [listing_eq h hroot]
      exact Query.checkedBody_ne_rejected h registry root none [] normal.pageStages rejection

/-- An accepted query may be checked again, as it was given or as it is now.  The result stays
what it is, and no compiler that checks it once more can tell the two apart. -/
theorem checks_repeatable (maxDepth : Int) :
    (∀ query normal : Query, query.normalize maxDepth = .ok normal →
      ∀ deeper, maxDepth ≤ deeper →
        query.normalize deeper = .ok normal ∧ normal.normalize deeper = .ok normal) ∧
    (maxDepth ≤ Query.defaultMaxDepth →
      (∀ query normal : Query, query.normalize maxDepth = .ok normal → ∀ registry,
        (∀ collection, listing registry collection query = listing registry collection normal) ∧
          ∀ association : Association,
            association.pipeline registry query = association.pipeline registry normal) ∧
      ∀ parameters parsed, Query.parse maxDepth parameters = .ok parsed →
        ∀ registry collection rejection,
          listing registry collection parsed ≠ .error (.rejected rejection)) := by
  refine ⟨?_, fun hdepth => ⟨?_, ?_⟩⟩
  · intro query normal hnormal deeper hdeeper
    have hagain := Query.normalize_normal hnormal
    exact ⟨Query.normalize_deeper hnormal hdeeper, Query.normalize_deeper hagain hdeeper⟩
  · intro query normal hnormal registry
    have hquery := Query.normalize_deeper hnormal hdepth
    have hagain := Query.normalize_deeper (Query.normalize_normal hnormal) hdepth
    exact outcome_congr hquery hagain ⟨⟨rfl, rfl⟩, rfl⟩ rfl registry
  · intro parameters parsed hparsed
    obtain ⟨query, hnormal⟩ := Query.exists_normalize_of_parse hparsed
    have hagain := Query.normalize_normal hnormal
    exact listing_ne_rejected (Query.normalize_deeper hagain hdepth)

def untidyParameters : List (String × Value) := [
  ("$embed", .text " course , ,student"), ("status", .text "active"), ("$limit", .text "none"),
  ("$sort", .text "-course.title"), ("$limit", .text " 20 ")]

def tidyQuery : Query := Entries.ofList [
  ("$embed", Value.texts ["course", "student"]), ("status", .text "active"), ("$limit", .int 20),
  ("$sort", Value.texts ["-course.title"])]

def untidyQuery : Query := Entries.ofList [
  ("$embed", .tuple [.text " course", .text "student", .text "course "]),
  ("status", .text "active"), ("$limit", .text " 20 "), ("$sort", .text "-course.title")]

theorem checks_repeatable_untidy :
    (untidyQuery.normalize 1 = .ok tidyQuery ∧
      untidyQuery.normalize 2 = .ok tidyQuery ∧ tidyQuery.normalize 2 = .ok tidyQuery) ∧
    (∀ collection, listing .school collection untidyQuery = listing .school collection tidyQuery) ∧
    Query.parse 1 untidyParameters = .ok tidyQuery ∧
      ∀ collection rejection,
        listing .school collection tidyQuery ≠ .error (.rejected rejection) := by
  have hnormal : untidyQuery.normalize 1 = .ok tidyQuery := rfl
  have hparsed : Query.parse 1 untidyParameters = .ok tidyQuery := rfl
  obtain ⟨hrepeat, hcompilers⟩ := checks_repeatable 1
  obtain ⟨hsame, haccepted⟩ := hcompilers (by decide)
  exact ⟨⟨hnormal, hrepeat untidyQuery tidyQuery hnormal 2 (by decide)⟩,
    (hsame untidyQuery tidyQuery hnormal .school).1,
    hparsed, haccepted untidyParameters tidyQuery hparsed .school⟩

end QueryPipeline
