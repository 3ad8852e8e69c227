import QueryPipeline.Proofs.Embed.Compile

namespace QueryPipeline.Embed

variable {left right : List String} {registry : Registry} {root : Collection}
  {base : Option String} {materialized : List String}

theorem failure?_congr (h : ∀ path, path ∈ left ↔ path ∈ right) :
    Scope.failure? ⟨registry, root, base, left, materialized⟩ =
      Scope.failure? ⟨registry, root, base, right, materialized⟩ := by
  funext path
  simp only [Scope.failure?, h]

theorem compile_congr (h : ∀ path, path ∈ left ↔ path ∈ right) :
    compile registry root base materialized left =
      compile registry root base materialized right := by
  rw [compile_eq, compile_eq, levels_congr h, Scope.firstFailure?, Scope.firstFailure?,
    failure?_congr h]
  rfl

end QueryPipeline.Embed
