import Mathlib.Computability.RegularExpressions
import QueryPipeline.Proofs.Aggregation.Parts
import QueryPipeline.Proofs.Query.Normal

namespace QueryPipeline

open RegularExpression

def Value.operator : Value → String
  | .document [(operator, _)] => operator
  | _ => ""

def Stage.operator (stage : Stage) : String :=
  stage.toValue.operator

def PageStage.operator (stage : PageStage) : String :=
  stage.toValue.operator

namespace Shape

def optional (operator : String) : RegularExpression String :=
  1 + char operator

def level : RegularExpression String :=
  char "$lookup" * star (char "$lookup") * char "$set"

def body : RegularExpression String :=
  star level * optional "$sort" * optional "$match" * char "$facet"

def opening : RegularExpression String :=
  char "$match" * char "$lookup" * char "$unwind" * char "$lookup" * char "$set"

def page : RegularExpression String :=
  optional "$skip" * optional "$limit"

theorem mem_char (operator : String) : [operator] ∈ (char operator).matches' :=
  Set.mem_singleton _

theorem mem_optional {operators : List String} {operator : String}
    (h : operators = [] ∨ operators = [operator]) :
    operators ∈ (optional operator).matches' := by
  cases h with
  | inl h => exact .inl h
  | inr h => exact .inr h

theorem append_mem {front back : List String} {first second : RegularExpression String}
    (hfront : front ∈ first.matches') (hback : back ∈ second.matches') :
    front ++ back ∈ (first * second).matches' :=
  Language.append_mem_mul hfront hback

theorem nil_mem_star (part : RegularExpression String) : [] ∈ (star part).matches' :=
  Language.nil_mem_kstar _

theorem append_mem_star {front back : List String} {part : RegularExpression String}
    (hfront : front ∈ part.matches') (hback : back ∈ (star part).matches') :
    front ++ back ∈ (star part).matches' := by
  have h : front ++ back ∈ 1 + part.matches' * KStar.kstar part.matches' :=
    .inr (Language.append_mem_mul hfront hback)
  rw [Language.one_add_self_mul_kstar_eq_kstar] at h
  exact h

variable {base : Option String}

theorem lookups_mem_star (batch : Embed.Batch) :
    (batch.map fun entry => Stage.lookup (Embed.entryJoin base entry)).map Stage.operator ∈
      (star (char "$lookup")).matches' := by
  induction batch with
  | nil => exact nil_mem_star _
  | cons entry rest ih => exact append_mem_star (mem_char "$lookup") ih

theorem batchStages_mem (base : Option String) (batch : Embed.Batch) :
    batch = [] ∨ (Embed.batchStages base batch).map Stage.operator ∈ level.matches' := by
  cases batch with
  | nil => exact .inl rfl
  | cons entry rest =>
      right
      rw [Embed.batchStages, List.map_append]
      apply append_mem
      · exact append_mem (mem_char "$lookup") (lookups_mem_star rest)
      · exact mem_char "$set"

theorem plan_mem (batches : List Embed.Batch) :
    (batches.flatMap (Embed.batchStages base)).map Stage.operator ∈ (star level).matches' := by
  induction batches with
  | nil => exact nil_mem_star _
  | cons batch rest ih =>
      rw [List.flatMap_cons, List.map_append]
      cases batchStages_mem base batch with
      | inl hempty =>
          rw [hempty]
          exact ih
      | inr hlevel => exact append_mem_star hlevel ih

theorem sortStages_mem {query : Query} {sorting : List Stage}
    (h : query.sortStages base = .ok sorting) :
    sorting.map Stage.operator ∈ (optional "$sort").matches' := by
  apply mem_optional
  rcases Query.sortStages_cases h with rfl | ⟨criteria, rfl, _⟩
  · exact .inl rfl
  · exact .inr rfl

theorem filterStages_mem (query : Query) :
    (query.filterStages base).map Stage.operator ∈ (optional "$match").matches' := by
  apply mem_optional
  rcases query.filterStages_cases base with hnone | ⟨equalities, hstages, _⟩
  · exact .inl (by rw [hnone]; rfl)
  · exact .inr (by rw [hstages]; rfl)

theorem pageStages_mem {query : Query} {maxDepth : Int} (h : query.Normal maxDepth) :
    query.pageStages.map PageStage.operator ∈ page.matches' := by
  rw [Query.pageStages, List.map_append]
  apply append_mem
  · apply mem_optional
    rcases h.skipStages with hskip | ⟨n, hskip, _⟩
    · exact .inl (by rw [hskip]; rfl)
    · exact .inr (by rw [hskip]; rfl)
  · apply mem_optional
    rcases h.limitStages with hlimit | ⟨n, hlimit, _⟩
    · exact .inl (by rw [hlimit]; rfl)
    · exact .inr (by rw [hlimit]; rfl)

theorem count_set_plan (batches : List Embed.Batch) :
    ((batches.flatMap (Embed.batchStages base)).map Stage.operator).count "$set" ≤
      batches.length := by
  have hlookups : ∀ batch : Embed.Batch,
      ((batch.map fun entry => Stage.lookup (Embed.entryJoin base entry)).map
        Stage.operator).count "$set" = 0 := by
    intro batch
    rw [List.count_eq_zero, List.map_map]
    intro hmem
    obtain ⟨entry, _, hentry⟩ := List.mem_map.mp hmem
    exact absurd hentry (by decide : "$lookup" ≠ "$set")
  have hbatch : ∀ batch : Embed.Batch,
      ((Embed.batchStages base batch).map Stage.operator).count "$set" ≤ 1 := by
    intro batch
    rw [Embed.batchStages, List.map_append, List.count_append, hlookups, Nat.zero_add]
    cases batch with
    | nil => exact Nat.zero_le 1
    | cons entry rest => exact Nat.le_refl 1
  induction batches with
  | nil => exact Nat.le_refl 0
  | cons batch rest ih =>
      have hle := hbatch batch
      rw [List.flatMap_cons, List.map_append, List.count_append, List.length_cons]
      omega

end Shape

end QueryPipeline
