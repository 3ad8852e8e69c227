import Mathlib.Data.List.Induction
import QueryPipeline.Proofs.Embed.Compile
import QueryPipeline.Query.Stages

namespace QueryPipeline

theorem eraseDups_concat (items : List String) (last : String) :
    (items ++ [last]).eraseDups =
      if last ∈ items then items.eraseDups else items.eraseDups ++ [last] := by
  rw [List.eraseDups_append]
  by_cases h : last ∈ items
  · simp [List.removeAll, h]
  · simp [List.removeAll, h, List.eraseDups_cons]

theorem nodup_eraseDups (items : List String) : items.eraseDups.Nodup := by
  induction items using List.reverseRecOn with
  | nil => exact .nil
  | append_singleton front last ih =>
      rw [eraseDups_concat]
      split
      · exact ih
      · rename_i hlast
        refine List.nodup_append.mpr ⟨ih, List.nodup_singleton last, ?_⟩
        rintro item hitem other hother rfl
        rw [List.mem_singleton.mp hother, List.mem_eraseDups] at hitem
        exact hlast hitem

theorem eraseDups_eraseDups (items : List String) :
    items.eraseDups.eraseDups = items.eraseDups :=
  Embed.Scope.eraseDups_of_nodup (nodup_eraseDups items)

namespace Value

theorem texts_inj {left right : List String} : texts left = texts right ↔ left = right := by
  constructor
  · intro h
    exact List.map_injective_iff.mpr (fun _ _ => text.inj) (list.inj h)
  · exact congrArg texts

private theorem eraseDupsBy_map {convert : α → β} {sameLeft : α → α → Bool}
    {sameRight : β → β → Bool}
    (h : ∀ left right, sameRight (convert left) (convert right) = sameLeft left right)
    (items : List α) :
    (items.map convert).eraseDupsBy sameRight = (items.eraseDupsBy sameLeft).map convert := by
  induction hlength : items.length using Nat.strongRecOn generalizing items with
  | ind length ih =>
      cases items with
      | nil => rfl
      | cons first rest =>
          rw [List.map_cons, List.eraseDupsBy_cons, List.eraseDupsBy_cons, List.map_cons,
            List.filter_map]
          have hkept : (rest.filter fun item => sameLeft item first = false).length < length := by
            have hle := List.length_filter_le (fun item => sameLeft item first = false) rest
            rw [List.length_cons] at hlength
            omega
          simp only [Function.comp_def, h]
          rw [ih _ hkept _ rfl]

theorem same_text (left right : String) : same (.text left) (.text right) = (left == right) :=
  rfl

theorem distinct_texts (paths : List String) :
    distinct (paths.map .text) = paths.eraseDups.map .text :=
  eraseDupsBy_map same_text paths

theorem allTexts_texts (paths : List String) : allTexts (paths.map .text) = .ok paths := by
  induction paths with
  | nil => rfl
  | cons first rest ih =>
      rw [allTexts] at ih ⊢
      rw [List.map_cons, List.mapM_cons, ih]
      rfl

end Value

namespace Query

theorem embedPaths_of_texts {query : Query} {paths : List String}
    (h : (query.value embedKey).asList = paths.map .text) :
    query.embedPaths = .ok paths.eraseDups := by
  have hcomparable : (paths.map Value.text).all Value.comparable = true := by
    simp [Value.comparable]
  rw [embedPaths, embeds, h, hcomparable, if_pos rfl, Value.distinct_texts]
  exact Value.allTexts_texts _

variable {query : Query} {registry : Registry} {root : Collection} {base : Option String}
  {materialized : List String}

theorem embedStages_of_embedPaths {paths : List String} (h : query.embedPaths = .ok paths) :
    query.embedStages registry root base materialized =
      (Embed.compile registry root base materialized paths).mapError .embed := by
  rw [embedStages, h]
  rfl

theorem embedStages_eq_ok_iff {stages : List Stage} :
    query.embedStages registry root base materialized = .ok stages ↔
      ∃ paths, query.embedPaths = .ok paths ∧
        Embed.compile registry root base materialized paths = .ok stages := by
  rw [embedStages, bind_eq_ok_iff]
  simp only [mapError_eq_ok_iff]

def ofEmbeds (paths : List String) : Query :=
  Entries.ofList [(embedKey, Value.texts paths)]

theorem asList_ofEmbeds (paths : List String) :
    ((ofEmbeds paths).value embedKey).asList = paths.map .text := rfl

end Query

/-! A small schema: enrollments link students to courses, and the staff of a course is an
embedded document that refers to its teacher. -/

def Registry.school : Registry :=
  ofSchemas (Entries.ofList [
    ("Student", ⟨none, Entries.ofList [("name", .plain)]⟩),
    ("Teacher", ⟨some "teachers", Entries.ofList [
      ("mentor", .reference (some "Teacher"))]⟩),
    ("Course", ⟨some "courses", Entries.ofList [
      ("title", .plain), ("staff.teacher", .reference (some "Teacher"))]⟩),
    ("Enrollment", ⟨some "enrollments", Entries.ofList [
      ("student", .reference (some "Student")), ("course", .reference (some "Course"))]⟩)])

def Collection.enrollment : Collection := ⟨"Enrollment", "enrollments"⟩

end QueryPipeline
