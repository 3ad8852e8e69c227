import QueryPipeline.Proofs.Schema.Expanded

namespace QueryPipeline

/-! Declared paths as a file can hold them.  A path is a field where it is declared, or where
a declared path goes on below it, be that a string or not. -/

namespace Path

theorem contains_iff {outer inner : String} :
    Contains outer inner ↔ Begins outer inner ∧ outer ≠ inner := by
  constructor
  · rintro ⟨rest, rfl⟩
    refine ⟨?_, ?_⟩
    · rw [Begins, segments_append_dot]
      exact List.prefix_append _ _
    · intro heq
      exact not_contains_self outer ⟨rest, heq⟩
  · rintro ⟨⟨rest, hrest⟩, hproper⟩
    have hne : rest ≠ [] := by
      rintro rfl
      rw [List.append_nil] at hrest
      exact hproper (segments_inj hrest)
    refine ⟨join rest, ?_⟩
    rw [← join_segments inner, ← hrest, join,
      String.intercalate_append_of_ne_nil (segments_ne_nil outer) hne, ← join, ← join,
      join_segments]

theorem contains_iff_dropLast {outer inner : String} :
    Contains outer inner ↔ segments outer <+: (segments inner).dropLast := by
  rw [contains_iff, Begins]
  rcases (segments inner).eq_nil_or_concat with hnil | ⟨front, last, hsegments⟩
  · exact absurd hnil (segments_ne_nil inner)
  · rw [hsegments, List.concat_eq_append, List.dropLast_concat, List.prefix_concat_iff]
    constructor
    · rintro ⟨hwhole | hfront, hproper⟩
      · rw [← List.concat_eq_append, ← hsegments] at hwhole
        exact absurd (segments_inj hwhole) hproper
      · exact hfront
    · intro hfront
      refine ⟨.inr hfront, ?_⟩
      rintro rfl
      have hle := hfront.length_le
      rw [hsegments, List.length_concat] at hle
      omega

end Path

namespace RawText

/-- The path goes on, after a dot, where `parent` ends. -/
def IsBelow (path : RawText) (parent : String) : Prop :=
  ∃ rest, path.symbols = (ofString parent).symbols ++ .char '.' :: rest

theorem isBelow_ofString_iff {path parent : String} :
    (ofString path).IsBelow parent ↔ Path.Contains parent path := by
  constructor
  · rintro ⟨rest, hrest⟩
    obtain ⟨front, back, hpath, hfront, hback⟩ := List.map_eq_append_iff.mp hrest
    obtain ⟨dot, others, rfl, hdot, _⟩ := List.map_eq_cons_iff.mp hback
    have hfront : front = parent.toList :=
      (List.map_inj_right fun _ _ h => Symbol.char.inj h).mp hfront
    refine ⟨String.ofList others, ?_⟩
    rw [← String.toList_inj, hpath, hfront, Symbol.char.inj hdot]
    simp
  · rintro ⟨rest, rfl⟩
    exact ⟨(ofString rest).symbols, by simp [ofString]⟩

theorem IsBelow.trans {path : RawText} {middle outer : String} (h : path.IsBelow middle)
    (hmiddle : Path.Contains outer middle) : path.IsBelow outer := by
  obtain ⟨rest, hrest⟩ := h
  obtain ⟨back, rfl⟩ := hmiddle
  exact ⟨(ofString back).symbols ++ .char '.' :: rest, by simp [hrest, ofString]⟩

theorem symbols_eq_of_mapM {symbols : List Symbol} {chars : List Char}
    (h : symbols.mapM Symbol.char? = some chars) : symbols = chars.map .char := by
  induction symbols generalizing chars with
  | nil =>
      cases h
      rfl
  | cons symbol rest ih =>
      rw [List.mapM_cons] at h
      cases symbol with
      | half unit => cases h
      | char c =>
          cases hrest : rest.mapM Symbol.char? with
          | none => simp [Symbol.char?, hrest] at h
          | some others =>
              rw [hrest] at h
              cases h
              rw [List.map_cons, ih hrest]

theorem text?_eq_some_iff {path : RawText} {text : String} :
    path.text? = some text ↔ path = ofString text := by
  constructor
  · intro h
    obtain ⟨symbols⟩ := path
    obtain ⟨chars, hchars, rfl⟩ := Option.map_eq_some_iff.mp h
    rw [ofString, String.toList_ofList, ← symbols_eq_of_mapM hchars]
  · rintro rfl
    exact text?_ofString text

theorem exists_of_text?_eq_none {path : RawText} (h : path.text? = none) :
    ∃ unit rest, path.symbols = (ofString path.intact).symbols ++ .half unit :: rest := by
  obtain ⟨symbols⟩ := path
  induction symbols with
  | nil => cases h
  | cons symbol others ih =>
      cases symbol with
      | half unit => exact ⟨unit, others, rfl⟩
      | char c =>
          have hothers : (⟨others⟩ : RawText).text? = none := by
            cases hmapM : others.mapM Symbol.char? with
            | none => simp [text?, hmapM]
            | some chars => simp [text?, Symbol.char?, hmapM] at h
          obtain ⟨unit, rest, hrest⟩ := ih hothers
          refine ⟨unit, rest, ?_⟩
          simpa [ofString, intact, Symbol.char?] using hrest

theorem isBelow_iff_of_text?_eq_none {path : RawText} {parent : String}
    (h : path.text? = none) : path.IsBelow parent ↔ Path.Contains parent path.intact := by
  obtain ⟨unit, rest, hsymbols⟩ := exists_of_text?_eq_none h
  rw [← isBelow_ofString_iff, IsBelow, IsBelow, hsymbols]
  constructor
  · rintro ⟨tail, htail⟩
    -- Both sides are cut where the shorter front ends, and the half is no character.
    rcases List.append_eq_append_iff.mp htail with ⟨more, hparent, hmore⟩ | ⟨more, hintact, hmore⟩
    · have hhalf : .half unit ∈ (ofString parent).symbols := by
        cases more with
        | nil => cases hmore
        | cons symbol others =>
            cases hmore
            rw [hparent]
            simp
      simp [ofString] at hhalf
    · cases more with
      | nil => cases hmore
      | cons symbol others =>
          cases hmore
          exact ⟨others, hintact⟩
  · rintro ⟨tail, htail⟩
    exact ⟨tail ++ .half unit :: rest, by rw [htail, List.append_assoc, List.cons_append]⟩

end RawText

namespace CollectionSchema

open Registry (expandFields parents mem_parents_iff get?_foldl_step get?_expandFields)

variable {fields : List (RawText × FieldSpec)} {path parent : String}

theorem isBelow_iff_of_parent? {broken : RawText} (h : broken.text? = none) :
    broken.IsBelow parent ↔
      ∃ nearest, parent? broken = some nearest ∧ Path.Begins parent nearest := by
  rw [RawText.isBelow_iff_of_text?_eq_none h, Path.contains_iff_dropLast, parent?]
  cases hfront : (Path.segments broken.intact).dropLast with
  | nil => simp [Path.segments_ne_nil]
  | cons first rest =>
      have hsubset : first :: rest ⊆ Path.segments broken.intact :=
        hfront ▸ List.dropLast_subset _
      simp [Path.Begins, Path.segments_join_of_subset (List.cons_ne_nil first rest) hsubset]

/-- The path is the nearest one above a declared path that is no string. -/
def StandsIn (fields : List (RawText × FieldSpec)) (path : String) : Prop :=
  ∃ field ∈ fields, field.1.text? = none ∧ parent? field.1 = some path

instance (fields : List (RawText × FieldSpec)) (path : String) :
    Decidable (StandsIn fields path) :=
  inferInstanceAs (Decidable (∃ field ∈ fields, field.1.text? = none ∧ parent? field.1 = some path))

theorem get?_addField (known : Entries FieldSpec) (field : RawText × FieldSpec) :
    (addField known field.1 field.2).get? path =
      if .ofString path = field.1 then some field.2
      else (known.get? path).or
        (if field.1.text? = none ∧ parent? field.1 = some path then some .plain else none) := by
  rw [addField]
  cases htext : field.1.text? with
  | some text =>
      have hfield := RawText.text?_eq_some_iff.mp htext
      rw [hfield, Entries.get?_put]
      simp [RawText.ofString_inj]
  | none =>
      have hne : RawText.ofString path ≠ field.1 := by
        intro heq
        rw [← heq, RawText.text?_ofString] at htext
        cases htext
      rw [if_neg hne]
      cases hparent : parent? field.1 with
      | none => simp
      | some nearest => simp [Entries.get?_putNew, eq_comm]

theorem get?_ofFields (hnodup : (fields.map Prod.fst).Nodup) :
    (ofFields fields).get? path =
      (fields.lookup (.ofString path)).or
        (if StandsIn fields path then some .plain else none) := by
  rw [ofFields, get?_foldl_step get?_addField hnodup, Entries.get?_empty, Option.none_or]
  rfl

theorem mem_keys_ofFields_iff (hnodup : (fields.map Prod.fst).Nodup) :
    path ∈ (ofFields fields).keys ↔
      (fields.lookup (.ofString path)).isSome = true ∨ StandsIn fields path := by
  rw [← Entries.contains_iff_mem_keys, Entries.contains, get?_ofFields hnodup, Option.isSome_or,
    Bool.or_eq_true]
  refine or_congr_right ?_
  split
  · rename_i hstands
    simp [hstands]
  · rename_i hstands
    simp [hstands]

theorem exists_isBelow_iff (hnodup : (fields.map Prod.fst).Nodup) :
    (∃ inner ∈ fields.map Prod.fst, inner.IsBelow path) ↔
      StandsIn fields path ∨ ∃ key ∈ (ofFields fields).keys, path ∈ parents key := by
  simp only [mem_keys_ofFields_iff hnodup, mem_parents_iff]
  constructor
  · rintro ⟨_, hinner, hbelow⟩
    obtain ⟨field, hfield, rfl⟩ := List.mem_map.mp hinner
    cases htext : field.1.text? with
    | some text =>
        have hname := RawText.text?_eq_some_iff.mp htext
        rw [hname, RawText.isBelow_ofString_iff, Path.contains_iff] at hbelow
        refine .inr ⟨text, .inl ?_, hbelow⟩
        rw [← hname, ← Option.ne_none_iff_isSome, ne_eq, Entries.lookup_eq_none_iff_notMem,
          Classical.not_not]
        exact List.mem_map_of_mem hfield
    | none =>
        obtain ⟨nearest, hnearest, hbegins⟩ := (isBelow_iff_of_parent? htext).mp hbelow
        have hstands : StandsIn fields nearest := ⟨field, hfield, htext, hnearest⟩
        by_cases heq : path = nearest
        · exact .inl (heq ▸ hstands)
        · exact .inr ⟨nearest, .inr hstands, hbegins, heq⟩
  · rintro (⟨field, hfield, htext, hnearest⟩ | ⟨key, hkey, hparent⟩)
    · exact ⟨field.1, List.mem_map_of_mem hfield,
        (isBelow_iff_of_parent? htext).mpr ⟨path, hnearest, Path.Begins.refl path⟩⟩
    · rcases hkey with hdeclared | ⟨field, hfield, htext, hnearest⟩
      · obtain ⟨spec, hspec⟩ := Option.isSome_iff_exists.mp hdeclared
        obtain ⟨front, back, hfields, _⟩ := List.lookup_eq_some_iff.mp hspec
        refine ⟨.ofString key, by simp [hfields], ?_⟩
        exact RawText.isBelow_ofString_iff.mpr (Path.contains_iff.mpr hparent)
      · exact ⟨field.1, List.mem_map_of_mem hfield,
          (isBelow_iff_of_parent? htext).mpr ⟨key, hnearest, hparent.1⟩⟩

open Classical in
theorem get?_expandFields_ofFields (hnodup : (fields.map Prod.fst).Nodup) :
    (expandFields (ofFields fields)).get? path =
      (fields.lookup (.ofString path)).or
        (if ∃ inner ∈ fields.map Prod.fst, inner.IsBelow path then some .plain else none) := by
  rw [get?_expandFields, get?_ofFields hnodup, Option.or_assoc]
  simp only [exists_isBelow_iff hnodup]
  congr 1
  by_cases hstands : StandsIn fields path
  · simp [hstands]
  · simp [hstands]

end CollectionSchema

end QueryPipeline
