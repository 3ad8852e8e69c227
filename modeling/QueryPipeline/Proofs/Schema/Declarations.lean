import Mathlib.Data.List.Forall2
import Mathlib.Data.List.Perm.Basic
import QueryPipeline.Proofs.Outcome
import QueryPipeline.Proofs.Schema.Below

namespace QueryPipeline

/-- The two lists have the same keys in the same order, and what stands under each is related. -/
def Entrywise (relates : α → β → Prop) (left : List (κ × α)) (right : List (κ × β)) : Prop :=
  List.Forall₂ (fun entry other => entry.1 = other.1 ∧ relates entry.2 other.2) left right

namespace Entrywise

variable {relates : α → β → Prop} {left : List (κ × α)} {right : List (κ × β)}

theorem map_fst (h : Entrywise relates left right) : left.map Prod.fst = right.map Prod.fst := by
  induction h with
  | nil => rfl
  | cons hentry _ ih => rw [List.map_cons, List.map_cons, hentry.1, ih]

theorem lookup [DecidableEq κ] (h : Entrywise relates left right) (key : κ) :
    Option.Rel relates (left.lookup key) (right.lookup key) := by
  induction h with
  | nil => exact .none
  | @cons entry other _ _ hentry _ ih =>
      rw [List.lookup_cons, List.lookup_cons, ← hentry.1]
      cases key == entry.1 with
      | true => exact .some hentry.2
      | false => exact ih

theorem exists_of_mem (h : Entrywise relates left right) {entry : κ × α} (hentry : entry ∈ left) :
    ∃ value, relates entry.2 value := by
  induction h with
  | nil => cases hentry
  | @cons first other _ _ hfirst _ ih =>
      rcases List.mem_cons.mp hentry with rfl | hentry
      · exact ⟨other.2, hfirst.2⟩
      · exact ih hentry

theorem exists_of_mem_right (h : Entrywise relates left right) {entry : κ × β}
    (hentry : entry ∈ right) : ∃ other ∈ left, relates other.2 entry.2 := by
  induction h with
  | nil => cases hentry
  | @cons first other _ _ hfirst _ ih =>
      rcases List.mem_cons.mp hentry with rfl | hentry
      · exact ⟨first, List.mem_cons_self, hfirst.2⟩
      · obtain ⟨found, hfound, hrelates⟩ := ih hentry
        exact ⟨found, List.mem_cons_of_mem first hfound, hrelates⟩

theorem exists_entrywise {moves : α → α → Prop} {others : List (κ × α)}
    (hmoves : Entrywise moves left others) (h : Entrywise relates left right)
    (hexists : ∀ {value other image}, moves value other → relates value image →
      ∃ image, relates other image) :
    ∃ images : List (κ × β), Entrywise relates others images := by
  induction hmoves generalizing right with
  | nil => exact ⟨[], .nil⟩
  | @cons entry other _ _ hentry _ ih =>
      obtain ⟨image, images, himage, himages, rfl⟩ := List.forall₂_cons_left_iff.mp h
      obtain ⟨value, hvalue⟩ := hexists hentry.2 himage.2
      obtain ⟨rest, hrest⟩ := ih himages
      exact ⟨(other.1, value) :: rest, .cons ⟨rfl, hvalue⟩ hrest⟩

end Entrywise

namespace Declaration

def fieldsIn : Declaration → List (RawText × Declaration)
  | .document entries =>
      match find? entries "fields" with
      | some (.document fields) => fields
      | _ => []
  | _ => []

def fieldsOf (declarations : List (RawText × Declaration)) (owner : String) :
    List (RawText × Declaration) :=
  ((find? declarations owner).map fieldsIn).getD []

def pathsOf (declarations : List (RawText × Declaration)) (owner : String) : List RawText :=
  (fieldsOf declarations owner).map Prod.fst

structure Keyed (declarations : List (RawText × Declaration)) : Prop where
  owners : (declarations.map Prod.fst).Nodup
  fields : ∀ declaration ∈ declarations, ((fieldsIn declaration.2).map Prod.fst).Nodup

/-- The kind that a field is given, plain unless something else is said. -/
inductive GivesKind : Option Declaration → FieldKind → Prop
  | unsaid : GivesKind none .plain
  | said (kind : FieldKind) : GivesKind (some (.text (.ofString kind.name))) kind

inductive GivesTarget : Option Declaration → Option String → Prop
  | unsaid : GivesTarget none none
  | null : GivesTarget (some .null) none
  | said (target : RawText) : GivesTarget (some (.text target)) (some target.shown)

inductive Declares : Declaration → FieldKind → Option String → Prop
  | mk (type : GivesKind (find? entries "type") kind)
      (ref : GivesTarget (find? entries "ref") target) :
      Declares (.document entries) kind target

/-- The two declarations differ in the order of the fields of a collection at most. -/
inductive Reordered : Declaration → Declaration → Prop
  | refl (declaration : Declaration) : Reordered declaration declaration
  | fields (found : find? left "fields" = some (.document fields))
      (other : find? right "fields" = some (.document others)) (perm : fields.Perm others)
      (rest : ∀ key, key ≠ "fields" → find? left key = find? right key) :
      Reordered (.document left) (.document right)

theorem Reordered.perm {left right : Declaration} (h : Reordered left right) :
    (fieldsIn left).Perm (fieldsIn right) := by
  cases h with
  | refl => exact .refl _
  | fields found other perm _ =>
      rw [fieldsIn, found, fieldsIn, other]
      exact perm

end Declaration

namespace Checked

theorem under_eq_ok_iff {checked : Checked α} {key : String} {part : α} :
    checked.under key = .ok part ↔ checked = .ok part := by
  cases checked <;> simp [under]

theorem both_eq_ok_iff {first : Checked α} {second : Checked β} {parts : α × β} :
    both first second = .ok parts ↔ first = .ok parts.1 ∧ second = .ok parts.2 := by
  obtain ⟨left, right⟩ := parts
  cases first <;> cases second <;> simp [both]

theorem each_eq_ok_iff {check : α → Checked β} {items : List α} {parts : List β} :
    each check items = .ok parts ↔
      List.Forall₂ (fun item part => check item = .ok part) items parts := by
  induction items generalizing parts with
  | nil =>
      rw [each, List.forall₂_nil_left_iff, Except.ok.injEq, eq_comm]
  | cons item rest ih =>
      rw [each, map_eq_ok_iff, List.forall₂_cons_left_iff]
      simp only [both_eq_ok_iff, ih]
      constructor
      · rintro ⟨⟨part, others⟩, ⟨hpart, hothers⟩, rfl⟩
        exact ⟨part, others, hpart, hothers, rfl⟩
      · rintro ⟨part, others, hpart, hothers, rfl⟩
        exact ⟨(part, others), ⟨hpart, hothers⟩, rfl⟩

end Checked

namespace FieldSpec

open Declaration

theorem givesKind_of_checkKind {declared : Option Declaration} {kind : FieldKind}
    (h : checkKind declared = .ok kind) : GivesKind declared kind := by
  cases declared with
  | none =>
      cases h
      exact .unsaid
  | some declaration =>
      cases declaration with
      | text raw =>
          rw [checkKind] at h
          split at h
          · rename_i name hname
            rw [RawText.text?_eq_some_iff.mp hname]
            rw [kindNamed] at h
            split at h
            · rename_i hplain
              cases h
              exact hplain ▸ .said .plain
            · split at h
              · rename_i hreference
                cases h
                exact hreference ▸ .said .reference
              · cases h
          · cases h
      | _ => cases h

theorem givesTarget_of_checkOptionalText {declared : Option Declaration} {target : Option String}
    (h : (declared.getD .null).checkOptionalText = .ok target) : GivesTarget declared target := by
  cases declared with
  | none =>
      cases h
      exact .unsaid
  | some declaration =>
      cases declaration with
      | null =>
          cases h
          exact .null
      | text raw =>
          cases h
          exact .said raw
      | _ => cases h

theorem declares_of_check {declaration : Declaration} {spec : FieldSpec}
    (h : check declaration = .ok spec) : Declares declaration spec.kind spec.target? := by
  cases declaration with
  | document entries =>
      obtain ⟨parts, hboth, hparts⟩ := bind_eq_ok_iff.mp h
      obtain ⟨hkind, htarget⟩ := Checked.both_eq_ok_iff.mp hboth
      have hkind := givesKind_of_checkKind (Checked.under_eq_ok_iff.mp hkind)
      have htarget := givesTarget_of_checkOptionalText (Checked.under_eq_ok_iff.mp htarget)
      obtain ⟨kind, target⟩ := parts
      cases kind with
      | plain =>
          cases target with
          | none =>
              cases hparts
              exact ⟨hkind, htarget⟩
          | some name => cases hparts
      | reference =>
          cases hparts
          exact ⟨hkind, htarget⟩
  | _ => cases h

end FieldSpec

namespace CollectionSchema

open Declaration

theorem checkFields_eq_ok_iff {entries : List (RawText × Declaration)}
    {known : Entries FieldSpec} :
    checkFields (some (.document entries)) = .ok known ↔
      ∃ fields, List.Forall₂
        (fun entry field => entry.1 = field.1 ∧ FieldSpec.check entry.2 = .ok field.2)
        entries fields ∧ ofFields fields = known := by
  rw [checkFields, map_eq_ok_iff]
  simp only [Checked.each_eq_ok_iff, map_eq_ok_iff, Checked.under_eq_ok_iff]
  refine exists_congr fun fields => and_congr_left fun _ => ?_
  apply Iff.of_eq
  congr 1
  funext entry field
  obtain ⟨path, spec⟩ := field
  simp [and_comm]

theorem check_eq_ok_iff {entries : List (RawText × Declaration)} {schema : CollectionSchema} :
    check (.document entries) = .ok schema ↔
      ((find? entries "collection").getD .null).checkOptionalText = .ok schema.storedAs ∧
        checkFields (find? entries "fields") = .ok schema.fields := by
  rw [check, map_eq_ok_iff]
  simp only [Checked.both_eq_ok_iff, Checked.under_eq_ok_iff]
  constructor
  · rintro ⟨parts, hparts, rfl⟩
    exact hparts
  · exact fun h => ⟨(schema.storedAs, schema.fields), h, rfl⟩

theorem ofDeclaration_eq_ok_iff {declaration : Declaration} {schema : CollectionSchema} :
    ofDeclaration declaration = .ok schema ↔ check declaration = .ok schema := by
  rw [ofDeclaration]
  cases check declaration <;> simp [Checked.asModel]

theorem exists_fields_of_check {declaration : Declaration} {schema : CollectionSchema}
    (h : check declaration = .ok schema) :
    ∃ fields, List.Forall₂
      (fun entry field => entry.1 = field.1 ∧ FieldSpec.check entry.2 = .ok field.2)
      (fieldsIn declaration) fields ∧ schema.fields = ofFields fields := by
  cases declaration with
  | document entries =>
      have hfields := (check_eq_ok_iff.mp h).2
      rw [fieldsIn]
      cases hfind : find? entries "fields" with
      | none =>
          rw [hfind] at hfields
          exact ⟨[], .nil, (Except.ok.inj hfields).symm⟩
      | some found =>
          rw [hfind] at hfields
          cases found with
          | document fields =>
              obtain ⟨specs, hspecs, hknown⟩ := checkFields_eq_ok_iff.mp hfields
              exact ⟨specs, hspecs, hknown.symm⟩
          | _ => cases hfields
  | _ => cases h

theorem exists_of_reordered {left right : Declaration} {schema : CollectionSchema}
    (hreordered : Reordered left right) (h : check left = .ok schema) :
    ∃ other, check right = .ok other := by
  cases hreordered with
  | refl => exact ⟨schema, h⟩
  | @fields left right fields others found other perm rest =>
      obtain ⟨hstored, hfields⟩ := check_eq_ok_iff.mp h
      rw [found] at hfields
      obtain ⟨specs, hspecs, _⟩ := checkFields_eq_ok_iff.mp hfields
      obtain ⟨moved, hmoved, _⟩ := List.perm_comp_forall₂ perm.symm hspecs
      refine ⟨⟨schema.storedAs, ofFields moved⟩, check_eq_ok_iff.mpr ⟨?_, ?_⟩⟩
      · rw [← rest "collection" (by decide)]
        exact hstored
      · rw [other]
        exact checkFields_eq_ok_iff.mpr ⟨moved, hmoved, rfl⟩

end CollectionSchema

end QueryPipeline
