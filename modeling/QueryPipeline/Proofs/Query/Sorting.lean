import QueryPipeline.Proofs.Query.Normal

namespace QueryPipeline

namespace Entries

/-- Each key stands at its first place in the pairs and has its last value there. -/
structure Folds (pairs : List (String × α)) (entries : Entries α) : Prop where
  keys_eq : entries.keys = (pairs.map Prod.fst).eraseDups
  last : ∀ before key value after, pairs = before ++ (key, value) :: after →
    (∀ later ∈ after, later.1 ≠ key) → entries.get? key = some value

theorem folds_nil : Folds [] (empty : Entries α) where
  keys_eq := rfl
  last := by
    intro before key value after hpairs
    cases before <;> cases hpairs

theorem Folds.put {pairs : List (String × α)} {entries : Entries α} (h : Folds pairs entries)
    (key : String) (value : α) : Folds (pairs ++ [(key, value)]) (entries.put key value) where
  keys_eq := by
    rw [keys_put, List.map_append, List.map_singleton, eraseDups_concat, h.keys_eq]
    simp only [List.mem_eraseDups]
  last := by
    intro before other found after hpairs hlast
    -- The pair in question is the new one, or an earlier one with another key.
    rcases List.eq_nil_or_concat after with rfl | ⟨others, latest, rfl⟩
    · obtain ⟨_, hpair⟩ := List.append_inj' hpairs rfl
      cases hpair
      exact get?_put_self entries key value
    · rw [List.concat_eq_append, ← List.cons_append, ← List.append_assoc] at hpairs
      obtain ⟨rfl, hlatest⟩ := List.append_inj' hpairs rfl
      cases hlatest
      have hne : key ≠ other := hlast (key, value) (by simp)
      rw [get?_put_of_ne entries value hne.symm]
      exact h.last before other found others rfl fun later hlater => hlast later (by simp [hlater])

theorem folds_ofList (pairs : List (String × α)) : Folds pairs (ofList pairs) := by
  induction pairs using List.reverseRecOn with
  | nil => exact folds_nil
  | append_singleton front latest ih =>
      rw [ofList_concat]
      exact ih.put latest.1 latest.2

theorem Folds.mapValues {pairs : List (String × α)} {entries : Entries α} (h : Folds pairs entries)
    (convert : α → β) :
    Folds (pairs.map fun pair => (pair.1, convert pair.2))
      (entries.mapValues fun _ => convert) where
  keys_eq := by
    rw [keys_mapValues, h.keys_eq, List.map_map]
    rfl
  last := by
    intro before key value after hpairs hlast
    obtain ⟨front, others, rfl, _, hothers⟩ := List.map_eq_append_iff.mp hpairs
    obtain ⟨pair, back, rfl, hpair, rfl⟩ := List.map_eq_cons_iff.mp hothers
    cases hpair
    have hback : ∀ later ∈ back, later.1 ≠ pair.1 := fun later hlater =>
      hlast _ (List.mem_map_of_mem hlater)
    rw [get?_mapValues, h.last front pair.1 pair.2 back rfl hback]
    rfl

end Entries

theorem Path.qualify_ne_empty {path : String} (h : path ≠ "") (base : Option String) :
    qualify path base ≠ "" := by
  cases base with
  | none => exact h
  | some base =>
      by_cases hbase : base = ""
      · rw [hbase, qualify_empty]
        exact h
      · rw [qualify_some hbase]
        intro hempty
        have hlast := (String.append_eq_empty_iff.mp hempty).2
        exact h hlast

namespace Query

/-- One minus sign in front of a field turns its order around, and any further ones belong to
the field. -/
inductive Criterion : String → String × Int → Prop
  | descending (field : String) : Criterion ("-" ++ field) (field, -1)
  | ascending (plain : text.toList.head? ≠ some '-') : Criterion text (text, 1)

/-- The fields that the query sorts by, with their signs, as often as it names them. -/
inductive SortsBy (query : Query) : List (String × Int) → Prop
  | nothing (null : query.value sortKey = .null) : SortsBy query []
  | texts (holds : query.value sortKey = Value.texts texts)
      (reads : List.Forall₂ Criterion texts criteria) : SortsBy query criteria

variable {query normal : Query} {maxDepth : Int} {base : Option String} {text field : String}
  {texts : List String} {sign : Int} {criteria : List (String × Int)}

theorem toList_minus (field : String) : ("-" ++ field).toList = '-' :: field.toList :=
  String.toList_append

theorem criterion_of_minus (field : String) : criterion ("-" ++ field) = (field, .descending) := by
  rw [criterion, toList_minus]
  exact congrArg (·, Direction.descending) String.ofList_toList

theorem criterion_of_plain (h : text.toList.head? ≠ some '-') :
    criterion text = (text, .ascending) := by
  rw [criterion]
  split
  · rename_i hminus
    rw [hminus] at h
    exact absurd rfl h
  · rfl

theorem Criterion.criterion_eq (h : Criterion text (field, sign)) :
    ∃ way, criterion text = (field, way) ∧ way.sign = sign := by
  cases h with
  | descending => exact ⟨.descending, criterion_of_minus field, rfl⟩
  | ascending plain => exact ⟨.ascending, criterion_of_plain plain, rfl⟩

theorem exists_criterion (text : String) : ∃ read, Criterion text read := by
  by_cases hminus : text.toList.head? = some '-'
  · obtain ⟨rest, hrest⟩ := List.head?_eq_some_iff.mp hminus
    have htext : text = "-" ++ String.ofList rest := by
      rw [← String.toList_inj, toList_minus, String.toList_ofList, hrest]
    rw [htext]
    exact ⟨_, .descending (String.ofList rest)⟩
  · exact ⟨_, .ascending hminus⟩

theorem Criterion.field_ne_empty (h : Criterion text (field, sign)) (hnames : NamesField text) :
    field ≠ "" := by
  rintro rfl
  obtain ⟨c, hc, hne⟩ := hnames
  cases h with
  | descending =>
      have hminus : c = '-' := by simpa using hc
      exact hne hminus
  | ascending => cases hc

theorem exists_sortsBy (h : query.normalize maxDepth = .ok normal) :
    ∃ criteria, normal.SortsBy criteria := by
  have hreads : ∀ texts : List String, ∃ criteria, List.Forall₂ Criterion texts criteria := by
    intro texts
    induction texts with
    | nil => exact ⟨[], .nil⟩
    | cons text rest ih =>
        obtain ⟨read, hread⟩ := exists_criterion text
        obtain ⟨others, hothers⟩ := ih
        exact ⟨read :: others, .cons hread hothers⟩
  rcases (normal_of_normalize h).sort with hnull | ⟨texts, htexts⟩
  · exact ⟨[], .nothing hnull⟩
  · obtain ⟨criteria, hcriteria⟩ := hreads texts
    exact ⟨criteria, .texts htexts hcriteria⟩

theorem namesField_of_normalize (h : query.normalize maxDepth = .ok normal)
    (hvalue : normal.value sortKey = Value.texts texts) : ∀ text ∈ texts, NamesField text := by
  obtain ⟨_, hsort, _⟩ := forall_mem_rules_iff.mp (normalize_eq_ok_iff.mp h).revises
  rcases exists_paths_of_revises (fun _ => List.Subset.refl _) hsort with hnull |
    ⟨paths, hpaths, hnames⟩
  · rw [hvalue] at hnull
    cases hnull
  · rw [hvalue, Value.texts_inj] at hpaths
    exact hpaths ▸ hnames

theorem field_ne_empty_of_forall₂ (hreads : List.Forall₂ Criterion texts criteria)
    (hnames : ∀ text ∈ texts, NamesField text) : ∀ read ∈ criteria, read.1 ≠ "" := by
  induction hreads with
  | nil => exact List.forall_mem_nil _
  | cons hread _ ih =>
      rw [List.forall_mem_cons] at hnames ⊢
      exact ⟨hread.field_ne_empty hnames.1, ih hnames.2⟩

theorem SortsBy.field_ne_empty (h : normal.SortsBy criteria)
    (hnormal : query.normalize maxDepth = .ok normal) : ∀ read ∈ criteria, read.1 ≠ "" := by
  cases h with
  | nothing => exact List.forall_mem_nil _
  | texts hvalue hreads =>
      exact field_ne_empty_of_forall₂ hreads (namesField_of_normalize hnormal hvalue)

def orderings (base : Option String) (criteria : List (String × Int)) : List (String × Value) :=
  criteria.map fun read => (Path.qualify read.1 base, .int read.2)

theorem map_sign_eq_orderings (h : List.Forall₂ Criterion texts criteria) :
    (texts.map fun text => (Path.qualify (criterion text).1 base, (criterion text).2)).map
        (fun pair => (pair.1, Value.int pair.2.sign)) = orderings base criteria := by
  induction h with
  | nil => rfl
  | cons hread _ ih =>
      obtain ⟨way, hcriterion, hsign⟩ := hread.criterion_eq
      rw [List.map_cons, List.map_cons, ih, hcriterion, hsign]
      rfl

theorem folds_sortFields (h : List.Forall₂ Criterion texts criteria) (base : Option String) :
    Entries.Folds (orderings base criteria)
      ((sortFields texts base).mapValues fun _ way => .int way.sign) := by
  rw [← map_sign_eq_orderings h]
  exact (Entries.folds_ofList _).mapValues fun way : Direction => Value.int way.sign

theorem sortStages_of_texts (h : query.value sortKey = Value.texts texts) (base : Option String) :
    query.sortStages base =
      .ok (if texts.isEmpty then [] else [.sort (sortFields texts base)]) := by
  have hcriteria : query.sortCriteria = .ok texts := by
    rw [sortCriteria, h]
    exact Value.allTexts_texts texts
  rw [sortStages, hcriteria]
  rfl

theorem SortsBy.sortStages_nil (h : query.SortsBy []) (base : Option String) :
    query.sortStages base = .ok [] := by
  cases h with
  | nothing hnull =>
      rw [sortStages, sortCriteria, hnull]
      rfl
  | texts hvalue hreads =>
      cases hreads
      exact sortStages_of_texts hvalue base

theorem SortsBy.exists_stage (h : query.SortsBy criteria) (hne : criteria ≠ [])
    (base : Option String) :
    ∃ stage document, query.sortStages base = .ok [stage] ∧
      stage.toValue = .document [("$sort", .ofEntries document)] ∧
        Entries.Folds (orderings base criteria) document := by
  cases h with
  | nothing => exact absurd rfl hne
  | @texts texts _ hvalue hreads =>
      refine ⟨.sort (sortFields texts base), _, ?_, rfl, folds_sortFields hreads base⟩
      rw [sortStages_of_texts hvalue]
      cases hreads with
      | nil => exact absurd rfl hne
      | cons => rfl

/-- The stage has each field once, in the order in which the criteria first name them, and
the last criterion that names it decides on its sign. -/
theorem sort_folded (h : query.normalize maxDepth = .ok normal) (base : Option String) :
    (∃ criteria, normal.SortsBy criteria) ∧
    (normal.SortsBy [] → normal.sortStages base = .ok []) ∧
    ∀ criteria, normal.SortsBy criteria →
      (∀ read ∈ criteria, read.1 ≠ "" ∧ Path.qualify read.1 base ≠ "") ∧
      (criteria ≠ [] → ∃ stage document, normal.sortStages base = .ok [stage] ∧
        stage.toValue = .document [("$sort", .ofEntries document)] ∧
          Entries.Folds (orderings base criteria) document) := by
  refine ⟨exists_sortsBy h, fun hsorts => hsorts.sortStages_nil base, fun criteria hsorts => ?_⟩
  refine ⟨fun read hread => ?_, fun hne => hsorts.exists_stage hne base⟩
  have hfield := hsorts.field_ne_empty h read hread
  exact ⟨hfield, Path.qualify_ne_empty hfield base⟩

def untidySort : Query := Entries.ofList [
  ("status", .text "open"),
  ("$sort", .list [.text " -title", .text "year", .text "title ", .text "--rank", .text "-year"])]

def tidySort : Query := Entries.ofList [
  ("status", .text "open"), ("$sort", Value.texts ["-title", "year", "title", "--rank", "-year"])]

theorem sortsBy_tidySort : tidySort.SortsBy
    [("title", -1), ("year", 1), ("title", 1), ("-rank", -1), ("year", -1)] := by
  refine .texts rfl (.cons (.descending "title") (.cons (.ascending ?_) (.cons (.ascending ?_)
    (.cons (.descending "-rank") (.cons (.descending "year") .nil)))))
  · decide
  · decide

theorem sort_folded_repeated :
    untidySort.normalize 0 = .ok tidySort ∧
      ∃ stage document, tidySort.sortStages (some "rows") = .ok [stage] ∧
        stage.toValue = .document [("$sort", .ofEntries document)] ∧
          Entries.Folds [("rows.title", .int (-1)), ("rows.year", .int 1), ("rows.title", .int 1),
            ("rows.-rank", .int (-1)), ("rows.year", .int (-1))] document := by
  have hnormal : untidySort.normalize 0 = .ok tidySort := rfl
  obtain ⟨_, _, hsorted⟩ := sort_folded hnormal (some "rows")
  exact ⟨hnormal, (hsorted _ sortsBy_tidySort).2 (List.cons_ne_nil _ _)⟩

end Query

end QueryPipeline
