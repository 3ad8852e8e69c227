import Mathlib.Logic.ExistsUnique
import QueryPipeline.Proofs.Query.Requested

namespace QueryPipeline.Embed

def joinDocument (base : Option String) (entry : String × Collection) : Value :=
  .document [("$lookup", .document [
    ("from", .text entry.2.physicalName),
    ("localField", .text (Path.qualify entry.1 base)),
    ("foreignField", .text "_id"),
    ("as", .text (Path.qualify entry.1 base))])]

def firstsDocument (base : Option String) (batch : Batch) : Value :=
  .document [("$set", .document (batch.map fun entry =>
    (Path.qualify entry.1 base, .document [("$arrayElemAt",
      .list [.text ("$" ++ Path.qualify entry.1 base), .int 0])])))]

def batchDocuments (base : Option String) (batch : Batch) : List Value :=
  batch.map (joinDocument base) ++
    if batch = [] then [] else [firstsDocument base batch]

theorem toValue_batchStages (base : Option String) (batch : Batch) :
    (batchStages base batch).map Stage.toValue = batchDocuments base batch := by
  have hjoins : (batch.map fun entry => Stage.lookup (entryJoin base entry)).map
      Stage.toValue = batch.map (joinDocument base) := by
    rw [List.map_map]
    rfl
  rw [batchStages, batchDocuments, List.map_append, hjoins]
  cases batch with
  | nil => rfl
  | cons entry rest => simp [Stage.toValue, firstsDocument, firstElement, fieldReference]

theorem embedStages_exact (query : Query) (registry : Registry) (root : Collection)
    (base : Option String) (materialized paths : List String)
    (hpaths : (query.value Query.embedKey).asList = paths.map .text) :
    ((∃ failure, query.embedStages registry root base materialized =
        .error (.embed failure)) ↔
      ∃ path ∈ paths, ∀ target, resolve registry root path ≠ .ok target) ∧
    ((∀ path ∈ paths, ∃ target, resolve registry root path = .ok target) →
      ∃! batches, IsPlan registry root materialized paths batches ∧
        (query.embedStages registry root base materialized).map (List.map Stage.toValue) =
          .ok (batches.flatMap (batchDocuments base))) := by
  have hmem : ∀ path, path ∈ paths.eraseDups ↔ path ∈ paths := fun _ => List.mem_eraseDups
  rw [Query.embedStages_of_embedPaths (Query.embedPaths_of_texts hpaths)]
  constructor
  · have hfailure := @exists_compile_eq_error_iff registry root base materialized
      paths.eraseDups
    simp only [hmem] at hfailure
    simpa [mapError_eq_error_iff] using hfailure
  · intro hresolve
    have hok : ∀ path ∈ paths.eraseDups, ∃ target, resolve registry root path = .ok target :=
      fun path hpath => hresolve path ((hmem path).mp hpath)
    have hplan := (isPlan_batches
      ⟨registry, root, base, paths.eraseDups, materialized⟩).congr hmem
    refine ⟨_, ⟨hplan, ?_⟩, fun other hother => hother.1.unique hplan⟩
    rw [compile_eq, firstFailure?_eq_none_iff.mpr hok, unlessFailed_none]
    simp only [mapError_ok, Except.map, List.map_flatMap, toValue_batchStages]

def staffRequests : List String :=
  ["course.staff.teacher.mentor", "student", "course.staff.teacher"]

theorem embedStages_exact_staff :
    (∀ path ∈ staffRequests, ∃ target, resolve .school .enrollment path = .ok target) ∧
      ∃! batches, IsPlan .school .enrollment ["course"] staffRequests batches ∧
        ((Query.ofEmbeds staffRequests).embedStages .school .enrollment (some "rows")
            ["course"]).map (List.map Stage.toValue) =
          .ok (batches.flatMap (batchDocuments (some "rows"))) := by
  have hresolve : ∀ path ∈ staffRequests,
      ∃ target, resolve .school .enrollment path = .ok target := by
    simp only [staffRequests, List.forall_mem_cons, List.not_mem_nil, false_imp_iff,
      implies_true, and_true]
    exact ⟨⟨_, rfl⟩, ⟨_, rfl⟩, ⟨_, rfl⟩⟩
  refine ⟨hresolve, ?_⟩
  exact (embedStages_exact _ .school .enrollment (some "rows") ["course"] staffRequests
    (Query.asList_ofEmbeds staffRequests)).2 hresolve

end QueryPipeline.Embed
