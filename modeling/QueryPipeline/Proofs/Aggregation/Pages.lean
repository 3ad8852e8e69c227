import QueryPipeline.Aggregation.Page
import QueryPipeline.Proofs.Aggregation.Body
import QueryPipeline.Proofs.Aggregation.Checked
import QueryPipeline.Proofs.Query.Keys

namespace QueryPipeline

/-! What a store answers to a list query, page by page.  The pages tile the rows that reach
the facet, and each of them tells how many rows these are. -/

/-- What a store makes of the rows that reach a stage, given the documents it holds. -/
structure Store where
  apply : Value → List Value → List Value
  skip_eq : ∀ (amount : Nat) (rows : List Value),
    apply (.document [("$skip", .int amount)]) rows = rows.drop amount
  limit_eq : ∀ (amount : Nat) (rows : List Value), 1 ≤ amount →
    apply (.document [("$limit", .int amount)]) rows = rows.take amount
  count_eq : ∀ (field : String) (rows : List Value),
    apply (.document [("$count", .text field)]) rows =
      if rows.isEmpty then [] else [.document [(field, .int rows.length)]]

namespace Store

def applyAll (store : Store) (stages : List Value) (rows : List Value) : List Value :=
  stages.foldl (fun rows stage => store.apply stage rows) rows

/-- Every member of a facet starts from the same rows, and all of them make one document. -/
def facet (store : Store) (members : List (String × Value)) (rows : List Value) : Value :=
  .document (members.map fun member =>
    (member.1, .list (store.applyAll member.2.asList rows)))

def step (store : Store) : Value → List Value → List Value
  | .document [("$facet", .document members)], rows => [store.facet members rows]
  | stage, rows => store.apply stage rows

def aggregate (store : Store) (pipeline : Pipeline) (rows : List Value) : List Value :=
  (pipeline.map Stage.toValue).foldl (fun rows stage => store.step stage rows) rows

def answer (store : Store) (stored : List Value) (outcome : Except Fault Pipeline) :
    Except Fault Page := do
  let pipeline ← outcome
  (Page.ofDocuments (.list (store.aggregate pipeline stored))).mapError .misuse

end Store

def cut (skip limit : Option Nat) (rows : List α) : List α :=
  limit.elim (rows.drop (skip.getD 0)) (rows.drop (skip.getD 0)).take

def pageOf (skip limit : Option Nat) : List PageStage :=
  skip.toList.map (fun amount : Nat => .skip (.int amount)) ++
    limit.toList.map fun amount : Nat => .limit (.int amount)

namespace Store

variable {store : Store} {skip limit : Option Nat}

theorem applyAll_pageOf (store : Store) (skip : Option Nat) (hlimit : ∀ amount ∈ limit, 1 ≤ amount)
    (rows : List Value) :
    store.applyAll ((pageOf skip limit).map PageStage.toValue) rows = cut skip limit rows := by
  have hskip : store.applyAll ((pageOf skip none).map PageStage.toValue) rows =
      rows.drop (skip.getD 0) := by
    cases skip with
    | none => rfl
    | some amount => exact store.skip_eq amount rows
  cases limit with
  | none => exact hskip
  | some amount =>
      have hlast : store.applyAll ((pageOf skip (some amount)).map PageStage.toValue) rows =
          store.apply (.document [("$limit", .int amount)])
            (store.applyAll ((pageOf skip none).map PageStage.toValue) rows) := by
        cases skip <;> rfl
      rw [hlast, hskip]
      exact store.limit_eq amount _ (hlimit amount rfl)

theorem ofDocuments_facet (content rows : List Value) :
    Page.ofDocuments (.list [.document [(contentFacet, .list content),
      (totalFacet, .list (if rows.isEmpty then [] else
        [.document [(countField, .int rows.length)]]))]]) =
      .ok ⟨.list content, .int rows.length⟩ := by
  cases content <;> cases rows <;> rfl

theorem aggregate_append (front back : Pipeline) (rows : List Value) :
    store.aggregate (front ++ back) rows = store.aggregate back (store.aggregate front rows) := by
  rw [aggregate, List.map_append, List.foldl_append, aggregate, aggregate]

theorem aggregate_facet (page : List PageStage) (rows : List Value) :
    store.aggregate [.facet page] rows = [.document [
      (contentFacet, .list (store.applyAll (page.map PageStage.toValue) rows)),
      (totalFacet, .list (if rows.isEmpty then [] else
        [.document [(countField, .int rows.length)]]))]] := by
  rw [← store.count_eq]
  rfl

theorem answer_facet (hlimit : ∀ amount ∈ limit, 1 ≤ amount) (front : Pipeline)
    (stored : List Value) :
    store.answer stored (.ok (front ++ [.facet (pageOf skip limit)])) =
      .ok ⟨.list (cut skip limit (store.aggregate front stored)),
        .int (store.aggregate front stored).length⟩ := by
  have hanswer : store.answer stored (.ok (front ++ [.facet (pageOf skip limit)])) =
      (Page.ofDocuments (.list (store.aggregate (front ++ [.facet (pageOf skip limit)])
        stored))).mapError .misuse := rfl
  rw [hanswer, aggregate_append, aggregate_facet, store.applyAll_pageOf skip hlimit,
    ofDocuments_facet]
  rfl

end Store

namespace Query

variable {query normal paged : Query} {skip limit : Option Nat} {maxDepth : Int}

def isPageKey (key : String) : Bool :=
  key == skipKey || key == limitKey

def unpaged (query : Query) : Query :=
  query.filterKeys fun key => !isPageKey key

def amount (given : Option Nat) : Value :=
  given.elim .null fun amount => .int amount

/-- Apart from the page, for which it has these amounts, `paged` is as `query`. -/
structure PagedAs (query : Query) (skip limit : Option Nat) (paged : Query) : Prop where
  rest_eq : paged.unpaged = query.unpaged
  skip_eq : paged.value skipKey = amount skip
  limit_eq : paged.value limitKey = amount limit
  positive : ∀ amount ∈ limit, 1 ≤ amount

def onPage (query : Query) (skip limit : Nat) : Query :=
  Entries.put (query.put skipKey (.int skip)) limitKey (.int limit)

theorem pagedAs_onPage (query : Query) (skip : Nat) {limit : Nat} (h : 1 ≤ limit) :
    query.PagedAs (some skip) (some limit) (query.onPage skip limit) where
  rest_eq := by
    rw [unpaged, onPage, Entries.filterKeys_put_of_neg (by decide),
      Entries.filterKeys_put_of_neg (by decide), unpaged]
  skip_eq := by
    rw [onPage, value_put_of_ne _ _ (by decide), value_put_self]
    rfl
  limit_eq := by
    rw [onPage, value_put_self]
    rfl
  positive := by
    rintro _ ⟨⟩
    exact h

theorem agree_unpaged (query : Query) : query.unpaged.Agree query := by
  apply query.agree_filterKeys (by decide) (by decide)
  intro key hkey
  cases hpage : isPageKey key with
  | false => rfl
  | true =>
      rw [isPageKey, Bool.or_eq_true, beq_iff_eq, beq_iff_eq] at hpage
      rcases hpage with rfl | rfl <;> exact absurd hkey (by decide)

theorem accepts_amount {key : String} {minimum : Int} {given : Option Nat}
    (hgiven : paged.value key = amount given) (h : ∀ n ∈ given, minimum ≤ n) :
    (integerRule key minimum).Accepts paged := by
  rw [Rule.Accepts, integerRule_key, hgiven]
  cases given with
  | none => exact .inl rfl
  | some n => exact .inr ⟨.int n, n, .int n, h n rfl, rfl⟩

theorem value_amount {key : String} {minimum : Int} {given : Option Nat}
    (h : (integerRule key minimum).Revises paged normal)
    (hgiven : paged.value key = amount given) : normal.value key = amount given := by
  have hvalues := h.value_eq
  rw [integerRule_key, hgiven] at hvalues
  rcases hvalues with ⟨hnull, hnormal⟩ | ⟨n, hdenotes, _, hvalue⟩
  · rw [hnormal, hnull]
  · cases given with
    | none => cases hdenotes
    | some m =>
        cases hdenotes
        exact hvalue

theorem PagedAs.exists_normal (h : query.PagedAs skip limit paged)
    (hnormal : query.normalize maxDepth = .ok normal) :
    ∃ other, paged.normalize maxDepth = .ok other ∧ other.Agree normal ∧
      other.pageStages = pageOf skip limit := by
  have hagree := (h.rest_eq ▸ paged.agree_unpaged.symm).trans query.agree_unpaged
  obtain ⟨other, hother⟩ : ∃ other, paged.normalize maxDepth = .ok other := by
    obtain ⟨hembed, hsort, _⟩ :=
      forall_mem_rules_iff.mp (exists_normalize_iff_accepts.mp ⟨normal, hnormal⟩)
    rw [exists_normalize_iff_accepts, forall_mem_rules_iff]
    refine ⟨hembed.congr hagree.embed_eq, hsort.congr hagree.sort_eq, ?_, ?_⟩
    · exact accepts_amount h.skip_eq fun n _ => Int.natCast_nonneg n
    · exact accepts_amount h.limit_eq fun n hn => Int.ofNat_le.mpr (h.positive n hn)
  obtain ⟨_, _, hskip, hlimit⟩ :=
    forall_mem_rules_iff.mp (normalize_eq_ok_iff.mp hother).revises
  have hrest : other.unpaged = normal.unpaged := by
    have hcut : paged.unpaged.normalize maxDepth = .ok other.unpaged :=
      normalize_filterKeys_of_ok _ hother
    have hwhole : query.unpaged.normalize maxDepth = .ok normal.unpaged :=
      normalize_filterKeys_of_ok _ hnormal
    rw [h.rest_eq, hwhole] at hcut
    exact (Except.ok.inj hcut).symm
  have hotherAgree := hrest ▸ other.agree_unpaged.symm
  refine ⟨other, hother, hotherAgree.trans normal.agree_unpaged, ?_⟩
  rw [pageStages, skipStages, limitStages, value_amount hskip h.skip_eq,
    value_amount hlimit h.limit_eq]
  cases skip <;> cases limit <;> rfl

end Query

theorem exists_front_of_listing {registry : Registry} {collection : CollectionRef}
    {query : Query} {pipeline : Pipeline}
    (h : listing registry collection query = .ok pipeline) :
    ∃ front page, pipeline = front ++ [.facet page] ∧ (∀ stages, .facet stages ∉ front) ∧
      ∀ skip limit paged, query.PagedAs skip limit paged →
        listing registry collection paged = .ok (front ++ [.facet (pageOf skip limit)]) := by
  obtain ⟨normal, root, hnormal, hroot, hcheck, hbody⟩ := listing_eq_ok_iff.mp h
  obtain ⟨embeds, sorting, hembeds, hsorting, rfl⟩ := Query.bodyStages_eq_ok_iff.mp hbody
  refine ⟨embeds ++ sorting ++ normal.filterStages none, normal.pageStages, rfl, ?_, ?_⟩
  · obtain ⟨_, _, hcompile⟩ := Query.embedStages_eq_ok_iff.mp hembeds
    obtain ⟨_, batches, _, rfl⟩ := Embed.compile_eq_ok_iff.mp hcompile
    exact normal.facet_not_mem hsorting batches
  · intro skip limit paged hpaged
    obtain ⟨other, hother, hagree, hpage⟩ := hpaged.exists_normal hnormal
    refine listing_eq_ok_iff.mpr ⟨other, root, hother, hroot, ?_, ?_⟩
    · rw [hagree.checkPaths_eq, hcheck]
    · refine Query.bodyStages_eq_ok_iff.mpr ⟨embeds, sorting, ?_, ?_, ?_⟩
      · rw [hagree.embedStages_eq, hembeds]
      · rw [hagree.sortStages_eq, hsorting]
      · rw [hagree.filterStages_eq, hpage]

theorem flatMap_range_cut (rows : List α) (size count : Nat) :
    (List.range count).flatMap (fun index => cut (some (index * size)) (some size) rows) =
      rows.take (count * size) := by
  induction count with
  | zero => simp
  | succ count ih =>
      rw [List.range_succ, List.flatMap_append, ih, List.flatMap_singleton, Nat.succ_mul,
        List.take_add]
      rfl

theorem pages_tile (registry : Registry) (collection : CollectionRef) (query : Query)
    (pipeline : Pipeline) (h : listing registry collection query = .ok pipeline) :
    ∃ front page, pipeline = front ++ [.facet page] ∧ (∀ stages, .facet stages ∉ front) ∧
      ∀ (store : Store) (stored rows : List Value), store.aggregate front stored = rows →
        (∀ skip limit paged, query.PagedAs skip limit paged →
          listing registry collection paged = .ok (front ++ [.facet (pageOf skip limit)]) ∧
            store.answer stored (listing registry collection paged) =
              .ok ⟨.list (cut skip limit rows), .int rows.length⟩) ∧
        ∀ size count, 1 ≤ size → rows.length ≤ count * size →
          ∃ pages, (List.range count).mapM (fun index =>
              store.answer stored
                (listing registry collection (query.onPage (index * size) size))) = .ok pages ∧
            pages.flatMap (fun page => page.content.asList) = rows ∧
            ∀ page ∈ pages, page.total = .int rows.length := by
  obtain ⟨front, page, hpipeline, hfacet, hpaged⟩ := exists_front_of_listing h
  refine ⟨front, page, hpipeline, hfacet, ?_⟩
  rintro store stored rows rfl
  have hanswer : ∀ skip limit paged, query.PagedAs skip limit paged →
      store.answer stored (listing registry collection paged) =
        .ok ⟨.list (cut skip limit (store.aggregate front stored)),
          .int (store.aggregate front stored).length⟩ := by
    intro skip limit paged h
    rw [hpaged skip limit paged h]
    exact store.answer_facet h.positive front stored
  refine ⟨fun skip limit paged h => ⟨hpaged skip limit paged h, hanswer skip limit paged h⟩, ?_⟩
  intro size count hsize hcount
  have hstep : (fun index => store.answer stored
      (listing registry collection (query.onPage (index * size) size))) = fun index =>
        pure ⟨.list (cut (some (index * size)) (some size) (store.aggregate front stored)),
          .int (store.aggregate front stored).length⟩ :=
    funext fun index => hanswer _ _ _ (query.pagedAs_onPage (index * size) hsize)
  rw [hstep, List.mapM_pure]
  refine ⟨_, rfl, ?_, ?_⟩
  · rw [List.flatMap_map]
    exact (flatMap_range_cut _ size count).trans (List.take_of_length_le hcount)
  · intro page hmem
    obtain ⟨_, _, rfl⟩ := List.mem_map.mp hmem
    rfl

/-- Of the stages before a facet, only the filter on top-level fields is served. -/
def Store.inMemory : Store where
  apply stage rows :=
    match stage with
    | .document [("$skip", .int amount)] => rows.drop amount.toNat
    | .document [("$limit", .int amount)] => rows.take amount.toNat
    | .document [("$count", .text field)] =>
        if rows.isEmpty then [] else [.document [(field, .int rows.length)]]
    | .document [("$match", .document equalities)] =>
        rows.filter fun row => equalities.all fun equality =>
          match row with
          | .document fields => (fields.lookup equality.1).any (Value.sameAtom equality.2)
          | _ => false
    | _ => rows
  skip_eq _ _ := rfl
  limit_eq _ _ _ := rfl
  count_eq _ _ := rfl

def gradedRow (student grade : String) : Value :=
  .document [("student", .text student), ("grade", .text grade)]

theorem pages_tile_graded :
    ∃ pages, (List.range 2).mapM (fun index =>
        Store.inMemory.answer
          [gradedRow "ada" "A", gradedRow "bo" "B", gradedRow "cy" "A", gradedRow "di" "A"]
          (listing .school (.named "Enrollment")
            (Query.onPage (Entries.ofList [("grade", .text "A")]) (index * 2) 2))) = .ok pages ∧
      pages.flatMap (fun page => page.content.asList) =
        [gradedRow "ada" "A", gradedRow "cy" "A", gradedRow "di" "A"] ∧
      ∀ page ∈ pages, page.total = .int 3 := by
  obtain ⟨front, page, hpipeline, _, htile⟩ := pages_tile .school (.named "Enrollment")
    (Entries.ofList [("grade", .text "A")])
    [.filter (Entries.ofList [("grade", .text "A")]), .facet []] rfl
  obtain ⟨rfl, _⟩ := List.append_inj' (show [_] ++ [_] = _ from hpipeline) rfl
  exact (htile .inMemory _ _ rfl).2 2 2 (by decide) (by decide)

end QueryPipeline
