import QueryPipeline.Proofs.Schema.Declarations

namespace QueryPipeline.Registry

open Declaration

variable {declarations : List (RawText × Declaration)} {registry : Registry} {owner path : String}

theorem mapM_eq_ok_iff {step : α → Except ε β} {items : List α} {results : List β} :
    items.mapM step = .ok results ↔
      List.Forall₂ (fun item result => step item = .ok result) items results := by
  induction items generalizing results with
  | nil =>
      rw [List.mapM_nil, List.forall₂_nil_left_iff]
      exact ⟨fun h => (Except.ok.inj h).symm, fun h => h ▸ rfl⟩
  | cons item rest ih =>
      rw [List.mapM_cons, bind_eq_ok_iff, List.forall₂_cons_left_iff]
      constructor
      · rintro ⟨result, hresult, h⟩
        obtain ⟨others, hothers, h⟩ := bind_eq_ok_iff.mp h
        exact ⟨result, others, hresult, ih.mp hothers, (Except.ok.inj h).symm⟩
      · rintro ⟨result, others, hresult, hothers, rfl⟩
        refine ⟨result, hresult, ?_⟩
        exact bind_eq_ok_iff.mpr ⟨others, ih.mpr hothers, rfl⟩

def named (entries : List (RawText × α)) : List (String × α) :=
  entries.filterMap fun entry => entry.1.text?.map (·, entry.2)

theorem lookup_named (entries : List (RawText × α)) (key : String) :
    (named entries).lookup key = entries.lookup (.ofString key) := by
  induction entries with
  | nil => rfl
  | cons entry rest ih =>
      rw [named, List.filterMap_cons, List.lookup_cons]
      cases htext : entry.1.text? with
      | some text =>
          rw [RawText.text?_eq_some_iff.mp htext]
          by_cases hkey : key = text
          · simp [hkey]
          · have hraw : (RawText.ofString key == RawText.ofString text) = false := by
              simpa [RawText.ofString_inj] using hkey
            have hbeq : (key == text) = false := by simpa using hkey
            rw [hraw, Option.map_some, List.lookup_cons, hbeq]
            exact ih
      | none =>
          have hraw : (RawText.ofString key == entry.1) = false := by
            rw [beq_eq_false_iff_ne]
            rintro heq
            rw [← heq, RawText.text?_ofString] at htext
            cases htext
          rw [hraw]
          exact ih

theorem nodup_named {entries : List (RawText × α)} (h : (entries.map Prod.fst).Nodup) :
    ((named entries).map Prod.fst).Nodup := by
  have hnames : (named entries).map Prod.fst = (entries.map Prod.fst).filterMap RawText.text? := by
    simp [named, List.map_filterMap, List.filterMap_map, Function.comp_def]
  rw [hnames]
  refine List.Pairwise.filterMap _ ?_ h
  intro left right hne text hleft other hright heq
  subst heq
  exact hne ((RawText.text?_eq_some_iff.mp hleft).trans
    (RawText.text?_eq_some_iff.mp hright).symm)

theorem ofDeclarations_eq_ok_iff :
    ofDeclarations declarations = .ok registry ↔
      ∃ schemas, Entrywise (fun declaration schema =>
        CollectionSchema.check declaration = .ok schema) declarations schemas ∧
        ofSchemas (Entries.ofList (named schemas)) = registry := by
  have hstep : ∀ (entry : RawText × Declaration) (result : RawText × CollectionSchema),
      (do let schema ← CollectionSchema.ofDeclaration entry.2
          return (entry.1, schema)) = .ok result ↔
        entry.1 = result.1 ∧ CollectionSchema.check entry.2 = .ok result.2 := by
    intro entry result
    rw [bind_eq_ok_iff]
    simp only [CollectionSchema.ofDeclaration_eq_ok_iff]
    constructor
    · rintro ⟨schema, hschema, hresult⟩
      cases hresult
      exact ⟨rfl, hschema⟩
    · rintro ⟨hname, hschema⟩
      exact ⟨result.2, hschema, by rw [hname]; rfl⟩
  rw [ofDeclarations, bind_eq_ok_iff]
  simp only [mapM_eq_ok_iff, hstep]
  refine exists_congr fun schemas => and_congr_right fun _ => ?_
  exact ⟨Except.ok.inj, congrArg Except.ok⟩

section

variable (hkeyed : Keyed declarations) (h : ofDeclarations declarations = .ok registry)

include hkeyed

theorem nodup_pathsOf (owner : String) : (pathsOf declarations owner).Nodup := by
  rw [pathsOf, fieldsOf]
  cases hfind : find? declarations owner with
  | none => exact .nil
  | some declaration =>
      obtain ⟨front, back, hdeclarations, _⟩ := List.lookup_eq_some_iff.mp hfind
      have hmem : (.ofString owner, declaration) ∈ declarations := by simp [hdeclarations]
      exact hkeyed.fields _ hmem

include h

theorem exists_fields (owner : String) :
    ∃ fields, Entrywise (fun declaration spec => FieldSpec.check declaration = .ok spec)
        (fieldsOf declarations owner) fields ∧
      ∀ path, registry.field? owner path =
        (expandFields (CollectionSchema.ofFields fields)).get? path := by
  obtain ⟨schemas, hschemas, rfl⟩ := ofDeclarations_eq_ok_iff.mp h
  have hnodup : ((named schemas).map Prod.fst).Nodup :=
    nodup_named (hschemas.map_fst ▸ hkeyed.owners)
  have hget : (Entries.ofList (named schemas)).get? owner =
      schemas.lookup (.ofString owner) := by
    rw [Entries.get?, Entries.toList_ofList hnodup, lookup_named]
  have hrelated := hschemas.lookup (.ofString owner)
  simp only [field?_ofSchemas, hget, fieldsOf, find?]
  cases hschema : schemas.lookup (.ofString owner) with
  | none =>
      rw [hschema] at hrelated
      cases hfind : declarations.lookup (.ofString owner) with
      | some declaration => rw [hfind] at hrelated; cases hrelated
      | none => exact ⟨[], .nil, fun _ => rfl⟩
  | some schema =>
      rw [hschema] at hrelated
      cases hfind : declarations.lookup (.ofString owner) with
      | none => rw [hfind] at hrelated; cases hrelated
      | some declaration =>
          rw [hfind] at hrelated
          cases hrelated with
          | some hchecked =>
              obtain ⟨fields, hfields, heq⟩ := CollectionSchema.exists_fields_of_check hchecked
              exact ⟨fields, hfields, fun path => by rw [Option.bind_some, heq]⟩

theorem field?_eq_some_iff {spec : FieldSpec} :
    registry.field? owner path = some spec ↔
      (∃ declaration, (.ofString path, declaration) ∈ fieldsOf declarations owner ∧
        FieldSpec.check declaration = .ok spec) ∨
      .ofString path ∉ pathsOf declarations owner ∧
        (∃ inner ∈ pathsOf declarations owner, inner.IsBelow path) ∧ spec = .plain := by
  obtain ⟨fields, hfields, hfield⟩ := exists_fields hkeyed h owner
  have hpaths : pathsOf declarations owner = fields.map Prod.fst := hfields.map_fst
  have hnodup := nodup_pathsOf hkeyed owner
  have hrelated := hfields.lookup (.ofString path)
  rw [hfield, CollectionSchema.get?_expandFields_ofFields (hpaths ▸ hnodup), ← hpaths]
  simp only [Entries.mem_iff_lookup hnodup]
  cases hspec : fields.lookup (.ofString path) with
  | none =>
      have hnot : RawText.ofString path ∉ pathsOf declarations owner := by
        rw [hpaths]
        exact Entries.lookup_eq_none_iff_notMem.mp hspec
      rw [hspec] at hrelated
      cases hlookup : (fieldsOf declarations owner).lookup (.ofString path) with
      | some declaration => rw [hlookup] at hrelated; cases hrelated
      | none => simp [hnot, eq_comm]
  | some declared =>
      rw [hspec] at hrelated
      cases hlookup : (fieldsOf declarations owner).lookup (.ofString path) with
      | none => rw [hlookup] at hrelated; cases hrelated
      | some declaration =>
          rw [hlookup] at hrelated
          have hmem : RawText.ofString path ∈ pathsOf declarations owner :=
            List.mem_map.mpr ⟨_, (Entries.mem_iff_lookup hnodup).mpr hlookup, rfl⟩
          cases hrelated with
          | some hchecked => simp [hmem, hchecked]

theorem hasField_iff :
    registry.hasField owner path = true ↔
      .ofString path ∈ pathsOf declarations owner ∨
        ∃ inner ∈ pathsOf declarations owner, inner.IsBelow path := by
  rw [hasField, Option.isSome_iff_exists]
  simp only [field?_eq_some_iff hkeyed h]
  constructor
  · rintro ⟨spec, ⟨declaration, hdeclared, _⟩ | ⟨_, hbelow, _⟩⟩
    · exact .inl (List.mem_map_of_mem hdeclared)
    · exact .inr hbelow
  · intro hfield
    by_cases hdeclared : RawText.ofString path ∈ pathsOf declarations owner
    · obtain ⟨entry, hentry, hpath⟩ := List.mem_map.mp hdeclared
      obtain ⟨fields, hfields, _⟩ := exists_fields hkeyed h owner
      obtain ⟨spec, hspec⟩ := hfields.exists_of_mem hentry
      exact ⟨spec, .inl ⟨entry.2, hpath ▸ hentry, hspec⟩⟩
    · exact ⟨.plain, .inr ⟨hdeclared, hfield.resolve_left hdeclared, rfl⟩⟩

end

/-- What a registry answers about a path of a collection, by the declarations. -/
structure AnswersAsDeclared (declarations : List (RawText × Declaration)) (registry : Registry)
    (owner path : String) : Prop where
  hasField_iff : registry.hasField owner path = true ↔
    .ofString path ∈ pathsOf declarations owner ∨
      ∃ inner ∈ pathsOf declarations owner, inner.IsBelow path
  declared : ∀ declaration, (.ofString path, declaration) ∈ fieldsOf declarations owner →
    ∃ kind target, Declares declaration kind target ∧
      registry.fieldKind owner path = .ok kind ∧ registry.target? owner path = target
  parent : .ofString path ∉ pathsOf declarations owner → registry.hasField owner path = true →
    registry.fieldKind owner path = .ok .plain ∧ registry.target? owner path = none
  closed : registry.hasField owner path = true →
    ∀ initial, Path.Begins initial path → registry.hasField owner initial = true
  targeted : ∀ target, registry.target? owner path = some target →
    registry.fieldKind owner path = .ok .reference
  unknown_iff : ∀ unknown, registry.fieldKind owner path = .error unknown ↔
    registry.hasField owner path = false ∧ unknown = .field owner path

theorem answersAsDeclared (hkeyed : Keyed declarations)
    (h : ofDeclarations declarations = .ok registry) (owner path : String) :
    AnswersAsDeclared declarations registry owner path where
  hasField_iff := hasField_iff hkeyed h
  declared := by
    intro declaration hdeclared
    obtain ⟨fields, hfields, _⟩ := exists_fields hkeyed h owner
    obtain ⟨spec, hspec⟩ := hfields.exists_of_mem hdeclared
    have hfield := (field?_eq_some_iff hkeyed h).mpr (.inl ⟨declaration, hdeclared, hspec⟩)
    exact ⟨spec.kind, spec.target?, FieldSpec.declares_of_check hspec,
      by rw [fieldKind, hfield], by rw [target?, hfield]; rfl⟩
  parent := by
    intro hnot hhas
    have hbelow := ((hasField_iff hkeyed h).mp hhas).resolve_left hnot
    have hfield := (field?_eq_some_iff hkeyed h).mpr (.inr ⟨hnot, hbelow, rfl⟩)
    exact ⟨by rw [fieldKind, hfield]; rfl, by rw [target?, hfield]; rfl⟩
  closed := by
    intro hhas initial hbegins
    by_cases heq : initial = path
    · exact heq ▸ hhas
    · have hcontains := Path.contains_iff.mpr ⟨hbegins, heq⟩
      refine (hasField_iff hkeyed h).mpr (.inr ?_)
      rcases (hasField_iff hkeyed h).mp hhas with hdeclared | ⟨inner, hinner, hbelow⟩
      · exact ⟨_, hdeclared, RawText.isBelow_ofString_iff.mpr hcontains⟩
      · exact ⟨inner, hinner, hbelow.trans hcontains⟩
  targeted := by
    intro target htarget
    rw [target?] at htarget
    rw [fieldKind]
    cases hfield : registry.field? owner path with
    | none => simp [hfield] at htarget
    | some spec =>
        cases spec with
        | plain => simp [hfield, FieldSpec.target?] at htarget
        | reference name => rfl
  unknown_iff := by
    intro unknown
    rw [fieldKind, hasField]
    cases registry.field? owner path with
    | none => simp [eq_comm]
    | some spec => simp

section

variable {others : List (RawText × Declaration)}
  (hreordered : Entrywise Reordered declarations others)

include hreordered

theorem fieldsOf_perm (owner : String) :
    (fieldsOf declarations owner).Perm (fieldsOf others owner) := by
  have hrelated := hreordered.lookup (.ofString owner)
  rw [fieldsOf, fieldsOf, find?, find?]
  cases hleft : declarations.lookup (.ofString owner) with
  | none =>
      rw [hleft] at hrelated
      cases hright : others.lookup (.ofString owner) with
      | none => exact .refl _
      | some right => rw [hright] at hrelated; cases hrelated
  | some left =>
      rw [hleft] at hrelated
      cases hright : others.lookup (.ofString owner) with
      | none => rw [hright] at hrelated; cases hrelated
      | some right =>
          rw [hright] at hrelated
          cases hrelated with
          | some hsame => exact hsame.perm

theorem keyed_of_reordered (hkeyed : Keyed declarations) : Keyed others where
  owners := hreordered.map_fst ▸ hkeyed.owners
  fields := by
    intro other hother
    obtain ⟨declaration, hdeclaration, hsame⟩ := hreordered.exists_of_mem_right hother
    exact (hsame.perm.map Prod.fst).nodup_iff.mp (hkeyed.fields _ hdeclaration)

theorem exists_registry_of_reordered (h : ofDeclarations declarations = .ok registry) :
    ∃ same, ofDeclarations others = .ok same := by
  obtain ⟨schemas, hschemas, _⟩ := ofDeclarations_eq_ok_iff.mp h
  obtain ⟨moved, hmoved⟩ := hreordered.exists_entrywise hschemas
    fun hsame hcheck => CollectionSchema.exists_of_reordered hsame hcheck
  exact ⟨_, ofDeclarations_eq_ok_iff.mpr ⟨moved, hmoved, rfl⟩⟩

theorem field?_of_reordered {same : Registry} (hkeyed : Keyed declarations)
    (h : ofDeclarations declarations = .ok registry) (hsame : ofDeclarations others = .ok same)
    (owner path : String) : same.field? owner path = registry.field? owner path := by
  have hperm := fieldsOf_perm hreordered owner
  have hpaths := hperm.map Prod.fst
  apply Option.ext
  intro spec
  rw [field?_eq_some_iff hkeyed h, field?_eq_some_iff (keyed_of_reordered hreordered hkeyed) hsame]
  simp only [pathsOf, hperm.mem_iff, hpaths.mem_iff]

end

theorem fields_expanded (hkeyed : Keyed declarations)
    (h : ofDeclarations declarations = .ok registry) :
    (∀ owner path, AnswersAsDeclared declarations registry owner path) ∧
    ∀ others, Entrywise Reordered declarations others →
      ∃ same, ofDeclarations others = .ok same ∧ ∀ owner path,
        same.hasField owner path = registry.hasField owner path ∧
        same.fieldKind owner path = registry.fieldKind owner path ∧
        same.target? owner path = registry.target? owner path := by
  refine ⟨answersAsDeclared hkeyed h, ?_⟩
  intro others hreordered
  obtain ⟨same, hsame⟩ := exists_registry_of_reordered hreordered h
  refine ⟨same, hsame, fun owner path => ?_⟩
  have hfield := field?_of_reordered hreordered hkeyed h hsame owner path
  rw [hasField, hasField, fieldKind, fieldKind, target?, target?, hfield]
  exact ⟨rfl, rfl, rfl⟩

def postFields : List (String × Value) := [
  ("author.company", .document [("type", .text "reference"), ("ref", .text "Company")]),
  ("author", .document [("ref", .text "User"), ("type", .text "reference")]),
  ("meta.reviewer.since", .document [])]

def postDeclarations (fields : List (String × Value)) : List (RawText × Declaration) :=
  Declaration.ofPairs [
    ("Post", .document [("collection", .text "posts"), ("fields", .document fields)])]

theorem fields_expanded_posts :
    Keyed (postDeclarations postFields) ∧
    Entrywise Reordered (postDeclarations postFields) (postDeclarations postFields.reverse) ∧
    ∃ registry same, ofDeclarations (postDeclarations postFields) = .ok registry ∧
      ofDeclarations (postDeclarations postFields.reverse) = .ok same ∧
      AnswersAsDeclared (postDeclarations postFields) registry "Post" "meta.reviewer" ∧
      registry.fieldKind "Post" "author" = .ok .reference ∧
      same.fieldKind "Post" "author" = .ok .reference := by
  have hkeyed : Keyed (postDeclarations postFields) := ⟨by decide, by decide⟩
  have hreordered : Entrywise Reordered (postDeclarations postFields)
      (postDeclarations postFields.reverse) := by
    refine .cons ⟨rfl, .fields rfl rfl ?_ ?_⟩ .nil
    · rw [ofPairs_eq_map, ofPairs_eq_map, List.map_reverse]
      exact (List.reverse_perm _).symm
    · intro key hkey
      have hbeq : (key == "fields") = false := by simpa using hkey
      simp only [find?_ofPairs, List.lookup_cons, hbeq]
  obtain ⟨registry, h, hauthor⟩ :
      ∃ registry, ofDeclarations (postDeclarations postFields) = .ok registry ∧
        registry.fieldKind "Post" "author" = .ok .reference := ⟨_, rfl, rfl⟩
  obtain ⟨hanswers, hsame⟩ := fields_expanded hkeyed h
  obtain ⟨same, hother, heq⟩ := hsame _ hreordered
  exact ⟨hkeyed, hreordered, registry, same, h, hother, hanswers _ _, hauthor,
    (heq "Post" "author").2.1.trans hauthor⟩

end QueryPipeline.Registry
