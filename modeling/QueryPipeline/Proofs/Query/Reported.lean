import Mathlib.Data.List.Induction
import QueryPipeline.Proofs.Query.Keys
import QueryPipeline.Query.Parameters

namespace QueryPipeline

/-! Request parameters give a query, or a rejection that names a reserved key.  What is
taken apart before the checks is not reported: an entry of a list key that is no text, and
a page key under which nothing is left. -/

namespace Query

variable {query : Query} {key : String} {maxDepth minimum : Int}

theorem key_eq_of_blames (found : Value) (rejection : Rejection) :
    ∀ rule ∈ rules maxDepth, rule.Blames found rejection → rejection.key = rule.key :=
  forall_mem_rules_iff.mpr
    ⟨PathFault.key_eq, PathFault.key_eq, IntegerFault.key_eq, IntegerFault.key_eq⟩

theorem key_mem_readKeys_of_normalize {rejection : Rejection}
    (h : query.normalize maxDepth = .error rejection) : rejection.key ∈ readKeys := by
  obtain ⟨before, rule, after, hrules, _, _, hblames⟩ := normalize_eq_error_iff.mp h
  have hmem : rule ∈ rules maxDepth := by simp [hrules]
  have hkeys : (rules maxDepth).map (·.key) = readKeys := rfl
  rw [key_eq_of_blames _ rejection rule hmem hblames, ← hkeys]
  exact List.mem_map_of_mem hmem

/-- The outcome is a normal query, or a rejection of what is under a reserved key. -/
def Reported (maxDepth : Int) : Except Fault Query → Prop
  | .ok query => query.Normal maxDepth
  | .error (.rejected rejection) => rejection.key ∈ readKeys
  | .error _ => False

theorem reported_normalize (maxDepth : Int) (query : Query) :
    Reported maxDepth ((query.normalize maxDepth).mapError .rejected) := by
  cases hnormal : query.normalize maxDepth with
  | ok normal => exact normal_of_normalize hnormal
  | error rejection => exact key_mem_readKeys_of_normalize hnormal

def given (parameters : List (String × Value)) (key : String) : List Value :=
  (parameters.filter (·.1 == key)).map Prod.snd

def merged : List Value → Option Value
  | [] => none
  | [value] => some value
  | values => some (.list (values.flatMap Value.asList))

theorem merged_concat (values : List Value) (last : Value) :
    merged (values ++ [last]) =
      match merged values with
      | none => some last
      | some earlier => some (.list (earlier.asList ++ last.asList)) := by
  match values with
  | [] => rfl
  | [first] => simp [merged]
  | first :: second :: rest => simp [merged]

theorem asList_merged {values : List Value} {value : Value} (h : merged values = some value) :
    value.asList = values.flatMap Value.asList := by
  match values with
  | [] => cases h
  | [first] =>
      cases h
      simp
  | first :: second :: rest =>
      cases h
      rfl

theorem collect_concat (front : List (String × Value)) (name : String) (value : Value) :
    collect (front ++ [(name, value)]) =
      match (collect front).get? name with
      | none => (collect front).put name value
      | some earlier => (collect front).put name (.list (earlier.asList ++ value.asList)) := by
  rw [collect, List.foldl_append]
  rfl

theorem get?_collect (parameters : List (String × Value)) (key : String) :
    (collect parameters).get? key = merged (given parameters key) := by
  induction parameters using List.reverseRecOn with
  | nil => rfl
  | append_singleton front last ih =>
      obtain ⟨name, value⟩ := last
      rw [collect_concat]
      by_cases hname : name = key
      · subst hname
        have hgiven : given (front ++ [(name, value)]) name = given front name ++ [value] := by
          simp [given]
        rw [hgiven, merged_concat, ← ih]
        cases (collect front).get? name with
        | none => exact Entries.get?_put_self _ _ _
        | some earlier => exact Entries.get?_put_self _ _ _
      · have hgiven : given (front ++ [(name, value)]) key = given front key := by
          simp [given, hname]
        rw [hgiven, ← ih]
        cases (collect front).get? name with
        | none => exact Entries.get?_put_of_ne _ _ (Ne.symm hname)
        | some earlier => exact Entries.get?_put_of_ne _ _ (Ne.symm hname)

theorem asList_collect (parameters : List (String × Value)) (key : String) :
    ((collect parameters).value key).asList = (given parameters key).flatMap Value.asList := by
  rw [value, get?_collect]
  cases hmerged : merged (given parameters key) with
  | some value => exact asList_merged hmerged
  | none =>
      cases hgiven : given parameters key with
      | nil => rfl
      | cons first rest => cases rest <;> simp [hgiven, merged] at hmerged

/-- Texts are cut at their commas, and octets are passed on in one piece. -/
def isDivisible : Value → Bool
  | .text _ => true
  | .bytes _ => true
  | _ => false

def indivisible? (query : Query) (key : String) : Option Misuse :=
  if (query.value key).asList.all isDivisible then none else some .notText

def nothingLeft? (query : Query) (key : String) : Option Misuse :=
  match query.value key with
  | .list [] => some .noElements
  | _ => none

theorem mapM_fragments_eq (entries : List Value) :
    ∃ parts, entries.mapM fragments =
      unlessFailed (if entries.all isDivisible then none else some .notText) parts := by
  induction entries with
  | nil => exact ⟨[], rfl⟩
  | cons entry rest ih =>
      obtain ⟨parts, hparts⟩ := ih
      rw [List.mapM_cons, hparts, List.all_cons]
      cases hrest : rest.all isDivisible with
      | true =>
          cases entry with
          | text s => exact ⟨_, rfl⟩
          | bytes octets => exact ⟨_, rfl⟩
          | _ => exact ⟨[], rfl⟩
      | false => cases entry <;> exact ⟨[], rfl⟩

theorem splitKey_eq (key : String) (query : Query) :
    ∃ split : Query, query.splitKey key = unlessFailed (query.indivisible? key) split ∧
      ∀ other, other ≠ key → split.value other = query.value other := by
  rw [splitKey, indivisible?, value]
  cases query.get? key with
  | none => exact ⟨query, rfl, fun _ _ => rfl⟩
  | some given =>
      obtain ⟨parts, hparts⟩ := mapM_fragments_eq given.asList
      refine ⟨query.put key (.list parts.flatten), ?_, fun _ => value_put_of_ne query _⟩
      simp only [hparts, Option.getD_some]
      exact bind_pure_unlessFailed _ _ _

theorem lastOf_eq (key : String) (query : Query) :
    ∃ last : Query, query.lastOf key = unlessFailed (query.nothingLeft? key) last ∧
      ∀ other, other ≠ key → last.value other = query.value other := by
  rw [lastOf, nothingLeft?, value]
  cases query.get? key with
  | none => exact ⟨query, rfl, fun _ _ => rfl⟩
  | some given =>
      cases given with
      | list values =>
          cases values with
          | nil => exact ⟨query, rfl, fun _ _ => rfl⟩
          | cons first rest =>
              obtain ⟨last, hlast⟩ : ∃ last, (first :: rest).getLast? = some last :=
                ⟨_, List.getLast?_eq_some_getLast (List.cons_ne_nil first rest)⟩
              refine ⟨query.put key last, ?_, fun _ => value_put_of_ne query last⟩
              simp only [hlast]
              rfl
      | _ => exact ⟨query, rfl, fun _ _ => rfl⟩

def misuse? (query : Query) : Option Misuse :=
  (query.indivisible? embedKey).or <| (query.indivisible? sortKey).or <|
    (query.nothingLeft? skipKey).or (query.nothingLeft? limitKey)

theorem arrange_eq (query : Query) :
    ∃ arranged, query.arrange = unlessFailed query.misuse? arranged := by
  obtain ⟨embedded, hembed, hembedFrame⟩ := query.splitKey_eq embedKey
  obtain ⟨sorted, hsort, hsortFrame⟩ := embedded.splitKey_eq sortKey
  obtain ⟨skipped, hskip, hskipFrame⟩ := sorted.lastOf_eq skipKey
  obtain ⟨limited, hlimit, _⟩ := skipped.lastOf_eq limitKey
  have hsorted : embedded.indivisible? sortKey = query.indivisible? sortKey := by
    rw [indivisible?, hembedFrame sortKey (by decide), indivisible?]
  have hskipped : sorted.nothingLeft? skipKey = query.nothingLeft? skipKey := by
    rw [nothingLeft?, hsortFrame skipKey (by decide), hembedFrame skipKey (by decide),
      nothingLeft?]
  have hlimited : skipped.nothingLeft? limitKey = query.nothingLeft? limitKey := by
    rw [nothingLeft?, hskipFrame limitKey (by decide), hsortFrame limitKey (by decide),
      hembedFrame limitKey (by decide), nothingLeft?]
  refine ⟨limited, ?_⟩
  rw [arrange, misuse?, hembed]
  cases query.indivisible? embedKey with
  | some cause => rfl
  | none =>
      simp only [unlessFailed_none, bind, Except.bind, Option.none_or, hsort, hsorted]
      cases query.indivisible? sortKey with
      | some cause => rfl
      | none =>
          simp only [unlessFailed_none, Option.none_or, hskip, hskipped]
          cases query.nothingLeft? skipKey with
          | some cause => rfl
          | none => simp only [unlessFailed_none, Option.none_or, hlimit, hlimited]

def dividesUnder (parameters : List (String × Value)) (key : String) : Bool :=
  (given parameters key).all fun value => value.asList.all isDivisible

def leavesUnder (parameters : List (String × Value)) (key : String) : Bool :=
  match merged (given parameters key) with
  | some (.list []) => false
  | _ => true

def dividesLists (parameters : List (String × Value)) : Bool :=
  dividesUnder parameters embedKey && dividesUnder parameters sortKey

def leavesPage (parameters : List (String × Value)) : Bool :=
  leavesUnder parameters skipKey && leavesUnder parameters limitKey

theorem indivisible?_collect (parameters : List (String × Value)) (key : String) :
    (collect parameters).indivisible? key =
      if dividesUnder parameters key then none else some .notText := by
  rw [indivisible?, asList_collect, List.all_flatMap, dividesUnder]

theorem nothingLeft?_collect (parameters : List (String × Value)) (key : String) :
    (collect parameters).nothingLeft? key =
      if leavesUnder parameters key then none else some .noElements := by
  rw [nothingLeft?, value, get?_collect, leavesUnder]
  cases merged (given parameters key) with
  | none => rfl
  | some value =>
      cases value with
      | list values => cases values <;> rfl
      | _ => rfl

theorem misuse?_collect (parameters : List (String × Value)) :
    (collect parameters).misuse? =
      if dividesLists parameters then
        if leavesPage parameters then none else some .noElements
      else some .notText := by
  simp only [misuse?, indivisible?_collect, nothingLeft?_collect, dividesLists, leavesPage]
  by_cases hembed : dividesUnder parameters embedKey
  · by_cases hsort : dividesUnder parameters sortKey
    · by_cases hskip : leavesUnder parameters skipKey
      · simp [hembed, hsort, hskip]
      · simp [hembed, hsort, hskip]
    · simp [hembed, hsort]
  · simp [hembed]

theorem parse_eq (maxDepth : Int) (parameters : List (String × Value)) :
    ∃ arranged, parse maxDepth parameters =
      match (collect parameters).misuse? with
      | some cause => .error (.misuse cause)
      | none => (normalize maxDepth arranged).mapError .rejected := by
  obtain ⟨arranged, harrange⟩ := (collect parameters).arrange_eq
  refine ⟨arranged, ?_⟩
  rw [parse, harrange]
  cases (collect parameters).misuse? <;> rfl

/-- Exactly where an entry cannot be cut, or nothing is left for the page, the parameters are
not reported as a request would be. -/
theorem parameters_reported (maxDepth : Int) (parameters : List (String × Value)) :
    (dividesLists parameters = true → leavesPage parameters = true →
      Reported maxDepth (parse maxDepth parameters)) ∧
    (dividesLists parameters = false →
      parse maxDepth parameters = .error (.misuse .notText)) ∧
    (dividesLists parameters = true → leavesPage parameters = false →
      parse maxDepth parameters = .error (.misuse .noElements)) := by
  obtain ⟨arranged, hparse⟩ := parse_eq maxDepth parameters
  rw [hparse, misuse?_collect]
  refine ⟨?_, ?_, ?_⟩
  · intro hdivides hleaves
    rw [if_pos hdivides, if_pos hleaves]
    exact reported_normalize maxDepth arranged
  · intro hdivides
    rw [hdivides]
    rfl
  · intro hdivides hleaves
    rw [if_pos hdivides, hleaves]
    rfl

def repeatedParameters : List (String × Value) := [
  ("$embed", .text "author, author.company"), ("$limit", .text "5"), ("title", .text "Hi"),
  ("$embed", .list [.text "meta.reviewer", .bytes [32]]), ("$limit", .tuple [.int 7, .null])]

theorem parameters_reported_repeated :
    (dividesLists repeatedParameters = true ∧ leavesPage repeatedParameters = true ∧
      Reported 16 (parse 16 repeatedParameters)) ∧
    (dividesLists [("$sort", .text "title"), ("$sort", .bool true)] = false ∧
      parse 2 [("$sort", .text "title"), ("$sort", .bool true)] = .error (.misuse .notText)) ∧
    dividesLists [("$skip", .null), ("$skip", .list [])] = true ∧
      leavesPage [("$skip", .null), ("$skip", .list [])] = false ∧
      parse 0 [("$skip", .null), ("$skip", .list [])] = .error (.misuse .noElements) :=
  ⟨⟨rfl, rfl, (parameters_reported 16 repeatedParameters).1 rfl rfl⟩,
    ⟨rfl, (parameters_reported 2 _).2.1 rfl⟩,
    rfl, rfl, (parameters_reported 0 _).2.2 rfl rfl⟩

/-- A number among the embeds and an empty list for the page, of which the checks would
have told, are met before. -/
theorem number_and_empty_list_unreported :
    ¬Reported 16 (parse 16 [("$embed", .list [.int 3])]) ∧
      ¬Reported 16 (parse 16 [("$skip", .list [])]) :=
  ⟨id, id⟩

end Query

end QueryPipeline
