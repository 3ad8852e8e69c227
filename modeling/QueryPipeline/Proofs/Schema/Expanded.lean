import QueryPipeline.Proofs.Path
import QueryPipeline.Schema.Registry

namespace QueryPipeline

/-! The fields of a collection: those that are declared, with what they are declared as,
and as plain fields the parents of these. -/

namespace Entries

theorem get?_putNew (entries : Entries α) (key other : String) (value : α) :
    (entries.putNew key value).get? other =
      (entries.get? other).or (if other = key then some value else none) := by
  rw [putNew]
  cases hcontains : entries.contains key with
  | true =>
      by_cases h : other = key
      · obtain ⟨known, hknown⟩ := Option.isSome_iff_exists.mp hcontains
        rw [if_pos rfl, h, hknown, Option.some_or]
      · rw [if_pos rfl, if_neg h, Option.or_none]
  | false =>
      rw [if_neg Bool.false_ne_true, get?_put]
      by_cases h : other = key
      · have hnone : entries.get? key = none := by
          simpa [contains] using hcontains
        rw [if_pos h, if_pos h, h, hnone, Option.none_or]
      · rw [if_neg h, if_neg h, Option.or_none]

end Entries

namespace Path

theorem prefixes_concat (items : List α) (last : α) :
    prefixes (items ++ [last]) = prefixes items ++ [items ++ [last]] := by
  induction items with
  | nil => rfl
  | cons first rest ih => simp [prefixes, ih]

theorem mem_dropLast_prefixes {run items : List α} :
    run ∈ (prefixes items).dropLast ↔ run ≠ [] ∧ run <+: items ∧ run ≠ items := by
  rcases items.eq_nil_or_concat with rfl | ⟨front, last, rfl⟩
  · simp [prefixes]
  · rw [List.concat_eq_append, prefixes_concat, List.dropLast_concat, mem_prefixes,
      List.prefix_concat_iff]
    constructor
    · rintro ⟨hne, hrun⟩
      refine ⟨hne, .inr hrun, ?_⟩
      rintro rfl
      have hle := hrun.length_le
      rw [List.length_append, List.length_singleton] at hle
      omega
    · rintro ⟨hne, hwhole | hrun, hproper⟩
      · exact absurd hwhole hproper
      · exact ⟨hne, hrun⟩

end Path

namespace Registry

theorem mem_parents_iff {path parent : String} :
    parent ∈ parents path ↔ Path.Begins parent path ∧ parent ≠ path := by
  rw [parents, List.mem_map]
  constructor
  · rintro ⟨run, hrun, rfl⟩
    obtain ⟨hne, hbegins, hproper⟩ := Path.mem_dropLast_prefixes.mp hrun
    have hsegments := Path.segments_join_of_subset hne hbegins.subset
    refine ⟨by rwa [Path.Begins, hsegments], ?_⟩
    intro heq
    rw [heq] at hsegments
    exact hproper hsegments.symm
  · rintro ⟨hbegins, hproper⟩
    refine ⟨Path.segments parent, Path.mem_dropLast_prefixes.mpr
      ⟨Path.segments_ne_nil parent, hbegins, ?_⟩, Path.join_segments parent⟩
    exact fun heq => hproper (Path.segments_inj heq)

theorem get?_addParents (fields : Entries FieldSpec) (path other : String) :
    (addParents fields path).get? other =
      (fields.get? other).or (if other ∈ parents path then some .plain else none) := by
  rw [addParents]
  induction parents path generalizing fields with
  | nil => simp
  | cons parent rest ih =>
      rw [List.foldl_cons, ih, Entries.get?_putNew, Option.or_assoc]
      by_cases h : other = parent
      · simp [h]
      · simp [h]

/-- Each entry takes its own place.  What stands in for another takes a place only where there
is nothing yet, so it never takes that of an entry. -/
theorem get?_foldl_step {κ : Type u} [DecidableEq κ] {key : κ} {path : String}
    {StandsIn : κ × FieldSpec → Prop} [DecidablePred StandsIn]
    [∀ entries : List (κ × FieldSpec), Decidable (∃ entry ∈ entries, StandsIn entry)]
    {step : Entries FieldSpec → κ × FieldSpec → Entries FieldSpec}
    (hstep : ∀ known entry, (step known entry).get? path =
      if key = entry.1 then some entry.2
      else (known.get? path).or (if StandsIn entry then some .plain else none))
    {entries : List (κ × FieldSpec)} (hnodup : (entries.map Prod.fst).Nodup)
    (known : Entries FieldSpec) :
    (entries.foldl step known).get? path =
      (entries.lookup key).or ((known.get? path).or
        (if ∃ entry ∈ entries, StandsIn entry then some .plain else none)) := by
  induction entries generalizing known with
  | nil => simp
  | cons entry rest ih =>
      rw [List.map_cons, List.nodup_cons] at hnodup
      rw [List.foldl_cons, ih hnodup.2, hstep, List.lookup_cons]
      by_cases hkey : key = entry.1
      · have hnone : rest.lookup entry.1 = none :=
          Entries.lookup_eq_none_iff_notMem.mpr hnodup.1
        simp [hnone, hkey]
      · have hbeq : (key == entry.1) = false := by simpa using hkey
        rw [hbeq, if_neg hkey]
        by_cases hstands : StandsIn entry
        · cases rest.lookup key <;> cases known.get? path <;> simp [hstands]
        · simp only [List.mem_cons, exists_eq_or_imp, hstands, false_or, if_false, Option.or_none]

theorem get?_expandFields (declared : Entries FieldSpec) (path : String) :
    (expandFields declared).get? path =
      (declared.get? path).or
        (if ∃ field ∈ declared.keys, path ∈ parents field then some .plain else none) := by
  have hparents : (∃ field ∈ declared.keys, path ∈ parents field) ↔
      ∃ entry ∈ declared.toList, path ∈ parents entry.1 := by
    constructor
    · rintro ⟨field, hfield, hparent⟩
      obtain ⟨entry, hentry, rfl⟩ := List.mem_map.mp hfield
      exact ⟨entry, hentry, hparent⟩
    · rintro ⟨entry, hentry, hparent⟩
      exact ⟨entry.1, List.mem_map_of_mem hentry, hparent⟩
  have hstep : ∀ (known : Entries FieldSpec) (entry : String × FieldSpec),
      ((addParents known entry.1).put entry.1 entry.2).get? path =
      if path = entry.1 then some entry.2
      else (known.get? path).or (if path ∈ parents entry.1 then some .plain else none) := by
    intro known entry
    rw [Entries.get?_put, get?_addParents]
  rw [expandFields, get?_foldl_step hstep declared.nodup_keys, Entries.get?_empty, Option.none_or,
    Entries.get?]
  simp only [hparents]

/-- Being a parent makes no field a reference. -/
theorem get?_expandFields_eq_reference_iff {declared : Entries FieldSpec} {path : String}
    {target : Option String} :
    (expandFields declared).get? path = some (.reference target) ↔
      declared.get? path = some (.reference target) := by
  rw [get?_expandFields]
  cases declared.get? path with
  | none => simp
  | some spec => simp

theorem field?_ofSchemas (schemas : Entries CollectionSchema) (owner path : String) :
    (ofSchemas schemas).field? owner path =
      (schemas.get? owner).bind fun schema => (expandFields schema.fields).get? path := by
  rw [field?, ofSchemas, Entries.get?_mapValues]
  cases schemas.get? owner <;> rfl

/-- The path is declared in the collection named `owner`, or a path below it is. -/
def IsField (schemas : Entries CollectionSchema) (owner path : String) : Prop :=
  ∃ schema, schemas.get? owner = some schema ∧
    ∃ declared ∈ schema.fields.keys, Path.Begins path declared

theorem IsField.of_begins {schemas : Entries CollectionSchema} {owner path initial : String}
    (h : IsField schemas owner path) (hbegins : Path.Begins initial path) :
    IsField schemas owner initial := by
  obtain ⟨schema, hschema, declared, hdeclared, hpath⟩ := h
  exact ⟨schema, hschema, declared, hdeclared, hbegins.trans hpath⟩

theorem contains_expandFields_iff {declared : Entries FieldSpec} {path : String} :
    ((expandFields declared).get? path).isSome = true ↔
      ∃ field ∈ declared.keys, Path.Begins path field := by
  rw [get?_expandFields, Option.isSome_or, Bool.or_eq_true, ← Entries.contains,
    Entries.contains_iff_mem_keys]
  constructor
  · rintro (hdeclared | hparent)
    · exact ⟨path, hdeclared, Path.Begins.refl path⟩
    · split at hparent
      · rename_i hexists
        obtain ⟨field, hfield, hmem⟩ := hexists
        exact ⟨field, hfield, (mem_parents_iff.mp hmem).1⟩
      · cases hparent
  · rintro ⟨field, hfield, hbegins⟩
    by_cases heq : path = field
    · exact .inl (heq ▸ hfield)
    · right
      rw [if_pos ⟨field, hfield, mem_parents_iff.mpr ⟨hbegins, heq⟩⟩]
      rfl

theorem hasField_ofSchemas_iff {schemas : Entries CollectionSchema} {owner path : String} :
    (ofSchemas schemas).hasField owner path = true ↔ IsField schemas owner path := by
  rw [hasField, field?_ofSchemas, IsField]
  cases schemas.get? owner with
  | none => simp
  | some schema => simp [contains_expandFields_iff]

end Registry

end QueryPipeline
