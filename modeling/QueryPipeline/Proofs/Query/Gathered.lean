import QueryPipeline.Proofs.Query.Normalizes
import QueryPipeline.Proofs.Query.Reported

namespace QueryPipeline

/-! What a query holds that is read from text parameters.  A list key holds what is listed under
it anywhere, a page key what is given last, and every other key all that is given. -/

namespace Query

variable {pairs : List (String × String)} {texts : List String} {key : String}
  {query next normal : Query} {maxDepth minimum : Int}

theorem mem_textFragments {text path : String} (h : path ∈ textFragments text) :
    Text.trim path = path ∧ Text.NonBlank path := by
  obtain ⟨hmem, hblank⟩ := List.mem_filter.mp h
  obtain ⟨part, _, rfl⟩ := List.mem_map.mp hmem
  have htrim := Text.trim_trim part
  refine ⟨htrim, ?_⟩
  rw [Text.nonBlank_iff, htrim]
  simpa using hblank

def ofTexts (pairs : List (String × String)) : List (String × Value) :=
  pairs.map fun pair => (pair.1, .text pair.2)

def textsUnder (pairs : List (String × String)) (key : String) : List String :=
  (pairs.filter (·.1 == key)).map Prod.snd

def kept : List String → Option Value
  | [] => none
  | [text] => some (.text text)
  | texts => some (Value.texts texts)

def listed (arranged : List String → List String) : List String → Option Value
  | [] => none
  | texts => some (Value.texts (arranged (texts.flatMap textFragments)))

def latest (texts : List String) : Option Value :=
  texts.getLast?.map .text

def denoted (texts : List String) : Option Value :=
  (texts.getLast?.bind Text.integer?).map .int

theorem given_ofTexts (pairs : List (String × String)) (key : String) :
    given (ofTexts pairs) key = (textsUnder pairs key).map .text := by
  simp [given, ofTexts, textsUnder, List.filter_map, Function.comp_def]

theorem flatMap_asList_texts (texts : List String) :
    (texts.map Value.text).flatMap Value.asList = texts.map .text := by
  rw [List.flatMap_map, List.map_eq_flatMap]
  rfl

theorem merged_texts (texts : List String) : merged (texts.map .text) = kept texts := by
  match texts with
  | [] => rfl
  | [text] => rfl
  | first :: second :: rest =>
      exact congrArg (some ∘ Value.list) (flatMap_asList_texts (first :: second :: rest))

theorem exists_kept {first : String} {rest : List String} :
    ∃ value, kept (first :: rest) = some value ∧
      value.asList = (first :: rest).map .text := by
  obtain ⟨value, hkept⟩ : ∃ value, kept (first :: rest) = some value := by
    cases rest <;> exact ⟨_, rfl⟩
  refine ⟨value, hkept, ?_⟩
  rw [← merged_texts] at hkept
  rw [asList_merged hkept, flatMap_asList_texts]

theorem keys_collect (parameters : List (String × Value)) :
    (collect parameters).keys = (parameters.map Prod.fst).eraseDups := by
  induction parameters using List.reverseRecOn with
  | nil => rfl
  | append_singleton front last ih =>
      obtain ⟨name, value⟩ := last
      have hput : ∀ merged : Value, ((collect front).put name merged).keys =
          ((front ++ [(name, value)]).map Prod.fst).eraseDups := by
        intro merged
        rw [Entries.keys_put, List.map_append, List.map_singleton, eraseDups_concat, ih]
        simp only [List.mem_eraseDups]
      rw [collect_concat]
      cases (collect front).get? name <;> exact hput _

/-- What the parameters leave in a query, up to how its reserved keys are read. -/
structure Gathers (embeds criteria amounts : List String → Option Value)
    (pairs : List (String × String)) (query : Query) : Prop where
  keys_eq : query.keys = (pairs.map Prod.fst).eraseDups
  embed : query.get? embedKey = embeds (textsUnder pairs embedKey)
  sort : query.get? sortKey = criteria (textsUnder pairs sortKey)
  skip : query.get? skipKey = amounts (textsUnder pairs skipKey)
  limit : query.get? limitKey = amounts (textsUnder pairs limitKey)
  others : ∀ key, key ∉ readKeys → query.get? key = kept (textsUnder pairs key)

theorem Gathers.unique {embeds criteria amounts : List String → Option Value} {other : Query}
    (h : Gathers embeds criteria amounts pairs query)
    (hother : Gathers embeds criteria amounts pairs other) : query = other := by
  refine Entries.ext_of_get? (h.keys_eq.trans hother.keys_eq.symm) fun key => ?_
  by_cases hkey : key ∈ readKeys
  · simp only [readKeys, List.mem_cons, List.not_mem_nil, or_false] at hkey
    rcases hkey with rfl | rfl | rfl | rfl
    · exact h.embed.trans hother.embed.symm
    · exact h.sort.trans hother.sort.symm
    · exact h.skip.trans hother.skip.symm
    · exact h.limit.trans hother.limit.symm
  · exact (h.others key hkey).trans (hother.others key hkey).symm

theorem mapM_fragments_texts (texts : List String) :
    (texts.map Value.text).mapM fragments =
      .ok (texts.map fun text => (textFragments text).map .text) := by
  induction texts with
  | nil => rfl
  | cons first rest ih =>
      rw [List.map_cons, List.mapM_cons, ih]
      rfl

theorem exists_splitKey (h : query.get? key = kept texts) :
    ∃ next, query.splitKey key = .ok next ∧ Entries.Changes key (listed id texts) query next := by
  cases texts with
  | nil =>
      rw [splitKey, h]
      exact ⟨query, rfl, Entries.changes_self h⟩
  | cons first rest =>
      obtain ⟨value, hkept, hvalue⟩ := @exists_kept first rest
      have hget := h.trans hkept
      refine ⟨_, ?_, Entries.changes_put (Entries.mem_keys_of_get? hget) _⟩
      rw [id, Value.texts, List.map_flatMap, List.flatMap_def, splitKey, hget]
      simp only [hvalue, mapM_fragments_texts]
      rfl

theorem exists_lastOf (h : query.get? key = kept texts) :
    ∃ next, query.lastOf key = .ok next ∧ Entries.Changes key (latest texts) query next := by
  match texts with
  | [] =>
      rw [lastOf, h]
      exact ⟨query, rfl, Entries.changes_self h⟩
  | [text] =>
      rw [lastOf, h]
      exact ⟨query, rfl, Entries.changes_self h⟩
  | first :: second :: rest =>
      obtain ⟨last, hlast⟩ : ∃ last, (first :: second :: rest).getLast? = some last :=
        ⟨_, List.getLast?_eq_some_getLast (List.cons_ne_nil _ _)⟩
      refine ⟨query.put key (.text last), ?_, ?_⟩
      · rw [lastOf, h]
        simp only [kept, Value.texts, List.getLast?_map, hlast, Option.map_some]
      · rw [latest, hlast]
        exact Entries.changes_put (Entries.mem_keys_of_get? h) _

theorem exists_arranged (pairs : List (String × String)) :
    ∃ arranged, arrange (collect (ofTexts pairs)) = .ok arranged ∧
      Gathers (listed id) (listed id) latest pairs arranged := by
  have hkept : ∀ key, (collect (ofTexts pairs)).get? key = kept (textsUnder pairs key) := by
    intro key
    rw [get?_collect, given_ofTexts, merged_texts]
  obtain ⟨embedded, hembed, hembedded⟩ := exists_splitKey (hkept embedKey)
  obtain ⟨sorted, hsort, hsorted⟩ := exists_splitKey
    ((hembedded.get?_of_ne sortKey (by decide)).trans (hkept sortKey))
  obtain ⟨skipped, hskip, hskipped⟩ := exists_lastOf
    ((hsorted.get?_of_ne skipKey (by decide)).trans
      ((hembedded.get?_of_ne skipKey (by decide)).trans (hkept skipKey)))
  obtain ⟨arranged, hlimit, hlimited⟩ := exists_lastOf
    ((hskipped.get?_of_ne limitKey (by decide)).trans
      ((hsorted.get?_of_ne limitKey (by decide)).trans
        ((hembedded.get?_of_ne limitKey (by decide)).trans (hkept limitKey))))
  refine ⟨arranged, ?_, ?_, ?_, ?_, ?_, hlimited.get?_self, ?_⟩
  · rw [arrange, hembed]
    simp only [bind, Except.bind, hsort, hskip, hlimit]
  · rw [hlimited.keys_eq, hskipped.keys_eq, hsorted.keys_eq, hembedded.keys_eq, keys_collect,
      ofTexts, List.map_map]
    rfl
  · rw [hlimited.get?_of_ne embedKey (by decide), hskipped.get?_of_ne embedKey (by decide),
      hsorted.get?_of_ne embedKey (by decide), hembedded.get?_self]
  · rw [hlimited.get?_of_ne sortKey (by decide), hskipped.get?_of_ne sortKey (by decide),
      hsorted.get?_self]
  · rw [hlimited.get?_of_ne skipKey (by decide), hskipped.get?_self]
  · intro key hkey
    simp only [readKeys, List.mem_cons, List.not_mem_nil, or_false, not_or] at hkey
    obtain ⟨hembedKey, hsortKey, hskipKey, hlimitKey⟩ := hkey
    rw [hlimited.get?_of_ne key hlimitKey, hskipped.get?_of_ne key hskipKey,
      hsorted.get?_of_ne key hsortKey, hembedded.get?_of_ne key hembedKey, hkept key]

end Query

end QueryPipeline
