import QueryPipeline.Proofs.Query.Gathered

namespace QueryPipeline

/-! Queries that come from parameters, read as parameters once more.  They are the queries that
reading does not change. -/

namespace Query

/-- Cutting leaves such a text as it is. -/
structure Fragment (path : String) : Prop where
  trimmed : Text.trim path = path
  nonBlank : Text.NonBlank path
  whole : ',' ∉ path.toList

/-- The key is missing, or it holds a list of fragments in which nothing is to be arranged. -/
def HoldsPaths (query : Query) (key : String) (Fits : String → Prop)
    (arranged : List String → List String) : Prop :=
  query.get? key = none ∨ ∃ paths, query.get? key = some (Value.texts paths) ∧
    (∀ path ∈ paths, Fragment path ∧ Fits path) ∧ arranged paths = paths

def HoldsInteger (query : Query) (key : String) (minimum : Int) : Prop :=
  query.value key = .null ∨ ∃ n, query.value key = .int n ∧ minimum ≤ n

structure Parsed (maxDepth : Int) (query : Query) : Prop where
  embed : query.HoldsPaths embedKey (FitsDepth maxDepth) List.eraseDups
  sort : query.HoldsPaths sortKey NamesField id
  skip : query.HoldsInteger skipKey 0
  limit : query.HoldsInteger limitKey 1

variable {query next normal : Query} {key path text : String} {maxDepth minimum : Int}

theorem mem_of_mem_trim {c : Char} (h : c ∈ (Text.trim text).toList) : c ∈ text.toList := by
  obtain ⟨left, right, htext, _⟩ := Text.exists_strip_append Text.isBlank text.toList
  rw [Text.toList_trim] at h
  rw [htext]
  simp [h]

theorem fragment_of_mem (h : path ∈ textFragments text) : Fragment path where
  trimmed := (mem_textFragments h).1
  nonBlank := (mem_textFragments h).2
  whole := by
    obtain ⟨hmem, _⟩ := List.mem_filter.mp h
    obtain ⟨part, hpart, rfl⟩ := List.mem_map.mp hmem
    exact fun hcomma => Text.notMem_of_mem_split hpart (mem_of_mem_trim hcomma)

theorem Fragment.textFragments_eq (h : Fragment path) : textFragments path = [path] := by
  have hsplit : Text.split ',' path = [path] := by
    have hparts := @Text.split_intercalate ',' [path] (List.cons_ne_nil path [])
      (by simpa using h.whole)
    rwa [String.intercalate_singleton] at hparts
  have hblank : path ≠ "" := by
    rw [← h.trimmed]
    exact Text.nonBlank_iff.mp h.nonBlank
  rw [textFragments, hsplit, List.map_singleton, h.trimmed]
  exact List.filter_eq_self.mpr (by simpa using hblank)

theorem turns_fragments_iff {complaint : Complaint} {Fits : String → Prop}
    {arranged : List String → List String} {paths : List String} {result : Value}
    (h : ∀ path ∈ paths, Fragment path) :
    (pathRule key complaint Fits arranged).Turns (Value.texts paths) result ↔
      (∀ path ∈ paths, Fits path) ∧ result = Value.texts (arranged paths) :=
  pathRule_turns_texts_iff fun path hpath => ⟨(h path hpath).trimmed, (h path hpath).nonBlank⟩

inductive Cut : Option Value → Prop
  | missing : Cut none
  | listed (fragments : ∀ s, Value.text s ∈ entries → Fragment s) : Cut (some (.list entries))

theorem fragment_of_fragments {entry : Value} {parts : List Value}
    (h : fragments entry = .ok parts) : ∀ s, Value.text s ∈ parts → Fragment s := by
  intro s hs
  cases entry with
  | text t =>
      cases h
      obtain ⟨path, hpath, heq⟩ := List.mem_map.mp hs
      cases heq
      exact fragment_of_mem hpath
  | bytes octets =>
      cases h
      simp at hs
  | _ => cases h

theorem cut_of_splitKey (h : query.splitKey key = .ok next) :
    Entries.Changes key (next.get? key) query next ∧ Cut (next.get? key) := by
  rw [splitKey] at h
  cases hget : query.get? key with
  | none =>
      rw [hget] at h
      cases h
      exact ⟨Entries.changes_self rfl, hget ▸ .missing⟩
  | some value =>
      rw [hget] at h
      obtain ⟨parts, hparts, hnext⟩ := bind_eq_ok_iff.mp h
      cases hnext
      have hput := Entries.changes_put (Entries.mem_keys_of_get? hget) (Value.list parts.flatten)
      rw [hput.get?_self]
      refine ⟨hput, .listed fun s hs => ?_⟩
      obtain ⟨part, hpart, hmem⟩ := List.mem_flatten.mp hs
      obtain ⟨entry, _, hentry⟩ := exists_of_mapM_eq_ok hparts part hpart
      exact fragment_of_fragments hentry s hmem

theorem changes_of_lastOf (h : query.lastOf key = .ok next) :
    Entries.Changes key (next.get? key) query next := by
  rw [lastOf] at h
  split at h
  · rename_i values hget
    split at h
    · rename_i last _
      cases h
      have hput := Entries.changes_put (Entries.mem_keys_of_get? hget) last
      exact hput.get?_self ▸ hput
    · cases h
  · cases h
    exact Entries.changes_self rfl

theorem cut_of_arrange (h : query.arrange = .ok next) :
    Cut (next.get? embedKey) ∧ Cut (next.get? sortKey) := by
  obtain ⟨embedded, hembed, h⟩ := bind_eq_ok_iff.mp h
  obtain ⟨sorted, hsort, h⟩ := bind_eq_ok_iff.mp h
  obtain ⟨skipped, hskip, hlimit⟩ := bind_eq_ok_iff.mp h
  obtain ⟨_, hembedded⟩ := cut_of_splitKey hembed
  obtain ⟨hsortFrame, hsorted⟩ := cut_of_splitKey hsort
  have hskipFrame := changes_of_lastOf hskip
  have hlimitFrame := changes_of_lastOf hlimit
  constructor
  · rw [hlimitFrame.get?_of_ne embedKey (by decide), hskipFrame.get?_of_ne embedKey (by decide),
      hsortFrame.get?_of_ne embedKey (by decide)]
    exact hembedded
  · rw [hlimitFrame.get?_of_ne sortKey (by decide), hskipFrame.get?_of_ne sortKey (by decide)]
    exact hsorted

section

variable {complaint : Complaint} {Fits : String → Prop} {arranged : List String → List String}

theorem holdsPaths_of_revises (hcut : Cut (query.get? key))
    (hsubset : ∀ paths, arranged paths ⊆ paths)
    (harranged : ∀ paths, arranged (arranged paths) = arranged paths)
    (h : (pathRule key complaint Fits arranged).Revises query normal) :
    normal.HoldsPaths key Fits arranged := by
  rw [Rule.Revises, pathRule_key] at h
  cases hget : query.get? key with
  | none =>
      have hnull : query.value key = .null := by rw [value, hget, Option.getD_none]
      rcases h with ⟨_, hsame⟩ | ⟨_, ⟨_, hlists, _⟩, _⟩
      · exact .inl (hsame.trans hget)
      · rw [hnull] at hlists
        cases hlists
  | some found =>
      rw [hget] at hcut
      obtain ⟨hfragments⟩ | ⟨hfragments⟩ := hcut
      rw [value_of_get? hget] at h
      rcases h with ⟨hnull, _⟩ | ⟨_, hturns, hresult⟩
      · cases hnull
      · obtain ⟨texts, hlists⟩ := Exists.imp (fun _ h => h.1) hturns
        cases hlists with
        | list =>
            have hmem : ∀ s ∈ texts, Fragment s := fun s hs => hfragments s (List.mem_map_of_mem hs)
            obtain ⟨hfits, rfl⟩ := (turns_fragments_iff hmem).mp hturns
            refine .inr ⟨arranged texts, hresult, fun path hpath => ?_, harranged texts⟩
            have hpath := hsubset texts hpath
            exact ⟨hmem path hpath, hfits path hpath⟩

end

theorem parsed_of_parse {parameters : List (String × Value)}
    (h : parse maxDepth parameters = .ok query) : Parsed maxDepth query := by
  obtain ⟨given, harrange, hnormal⟩ := bind_eq_ok_iff.mp h
  rw [mapError_eq_ok_iff] at harrange hnormal
  obtain ⟨hembedCut, hsortCut⟩ := cut_of_arrange harrange
  obtain ⟨hembed, hsort, hskip, hlimit⟩ :=
    forall_mem_rules_iff.mp (normalize_eq_ok_iff.mp hnormal).revises
  refine ⟨?_, ?_, exists_int_of_revises hskip, exists_int_of_revises hlimit⟩
  · refine holdsPaths_of_revises hembedCut ?_ eraseDups_eraseDups hembed
    exact fun _ _ hpath => List.mem_eraseDups.mp hpath
  · exact holdsPaths_of_revises hsortCut (fun _ => List.Subset.refl _) (fun _ => rfl) hsort

theorem collect_of_nodup {parameters : List (String × Value)}
    (h : (parameters.map Prod.fst).Nodup) : collect parameters = Entries.ofList parameters := by
  induction parameters using List.reverseRecOn with
  | nil => rfl
  | append_singleton front last ih =>
      obtain ⟨name, value⟩ := last
      rw [List.map_append, List.nodup_append] at h
      obtain ⟨hfront, _, hdisjoint⟩ := h
      have hfresh : name ∉ front.map Prod.fst := fun hname =>
        hdisjoint name hname name (List.mem_singleton_self name) rfl
      have hnone : (collect front).get? name = none := by
        rw [Entries.get?_eq_none_iff, keys_collect, List.mem_eraseDups]
        exact hfresh
      rw [collect_concat, hnone, ih hfront, Entries.ofList_concat]

theorem collect_toList (query : Query) : collect query.toList = query := by
  rw [collect_of_nodup query.nodup_keys, Entries.ofList_toList]

theorem put_eq_self {found : Value} (h : query.get? key = some found) :
    query.put key found = query :=
  (Entries.changes_put (Entries.mem_keys_of_get? h) found).unique (Entries.changes_self h)

theorem mapM_fragments_of_fragment {paths : List String} (h : ∀ path ∈ paths, Fragment path) :
    (paths.map Value.text).mapM fragments = .ok (paths.map fun path => [.text path]) := by
  rw [mapM_fragments_texts]
  congr 1
  apply List.map_congr_left
  intro path hpath
  rw [(h path hpath).textFragments_eq, List.map_singleton]

theorem splitKey_of_holdsPaths {Fits : String → Prop} {arranged : List String → List String}
    (h : query.HoldsPaths key Fits arranged) : query.splitKey key = .ok query := by
  rcases h with hnone | ⟨paths, hget, hpaths, _⟩
  · rw [splitKey, hnone]
  · have hfragments := mapM_fragments_of_fragment fun path hpath => (hpaths path hpath).1
    rw [splitKey, hget]
    simp only [Value.texts, Value.asList_list, hfragments]
    have hflatten : (paths.map fun path => [Value.text path]).flatten = paths.map .text := by
      rw [← List.flatMap_def, ← List.map_eq_flatMap]
    show Except.ok (query.put key (.list _)) = Except.ok query
    rw [hflatten]
    exact congrArg _ (put_eq_self hget)

theorem lastOf_of_holdsInteger (h : query.HoldsInteger key minimum) :
    query.lastOf key = .ok query := by
  rw [lastOf]
  split
  · rename_i values hget
    have hvalue := value_of_get? hget
    rcases h with hnull | ⟨n, hn, _⟩
    · rw [hvalue] at hnull
      cases hnull
    · rw [hvalue] at hn
      cases hn
  · rfl

theorem Parsed.arrange_eq (h : Parsed maxDepth query) : query.arrange = .ok query := by
  rw [arrange, splitKey_of_holdsPaths h.embed]
  simp only [bind, Except.bind, splitKey_of_holdsPaths h.sort, lastOf_of_holdsInteger h.skip,
    lastOf_of_holdsInteger h.limit]

theorem revises_of_holdsPaths {complaint : Complaint} {Fits : String → Prop}
    {arranged : List String → List String} (h : query.HoldsPaths key Fits arranged) :
    (pathRule key complaint Fits arranged).Revises query query := by
  rw [Rule.Revises, pathRule_key]
  rcases h with hnone | ⟨paths, hget, hpaths, harranged⟩
  · exact .inl ⟨by rw [value, hnone, Option.getD_none], rfl⟩
  · refine .inr ⟨Value.texts paths, ?_, hget⟩
    rw [value_of_get? hget, turns_fragments_iff fun path hpath => (hpaths path hpath).1, harranged]
    exact ⟨fun path hpath => (hpaths path hpath).2, rfl⟩

theorem get?_of_value_ne_null (h : query.value key ≠ .null) :
    query.get? key = some (query.value key) := by
  cases hget : query.get? key with
  | none =>
      rw [value, hget] at h
      exact absurd rfl h
  | some found => rw [value_of_get? hget]

theorem revises_of_holdsInteger (h : query.HoldsInteger key minimum) :
    (integerRule key minimum).Revises query query := by
  rw [Rule.Revises, integerRule_key]
  rcases h with hnull | ⟨n, hn, hminimum⟩
  · exact .inl ⟨hnull, rfl⟩
  · have hne : query.value key ≠ .null := by
      rw [hn]
      rintro ⟨⟩
    refine .inr ⟨query.value key, ?_, get?_of_value_ne_null hne⟩
    rw [hn]
    exact ⟨n, .int n, hminimum, rfl⟩

theorem Parsed.normalize_eq (h : Parsed maxDepth query) : query.normalize maxDepth = .ok query :=
  normalize_eq_ok_iff.mpr ⟨rfl, fun _ _ => rfl, forall_mem_rules_iff.mpr
    ⟨revises_of_holdsPaths h.embed, revises_of_holdsPaths h.sort, revises_of_holdsInteger h.skip,
      revises_of_holdsInteger h.limit⟩⟩

theorem Parsed.parse_eq (h : Parsed maxDepth query) : parse maxDepth query.toList = .ok query := by
  rw [parse, collect_toList, h.arrange_eq]
  simp only [mapError_ok, bind, Except.bind, h.normalize_eq]

/-- A query that was read is not changed by reading it again, and the queries that come from
parameters are those whose reserved keys are in the shape that reading gives them. -/
theorem parsed_again (maxDepth : Int) :
    (∀ parameters query, parse maxDepth parameters = .ok query →
      parse maxDepth query.toList = .ok query) ∧
    ∀ query : Query, parse maxDepth query.toList = .ok query ↔ Parsed maxDepth query := by
  refine ⟨fun parameters query h => (parsed_of_parse h).parse_eq, fun query => ?_⟩
  exact ⟨parsed_of_parse, Parsed.parse_eq⟩

def looseParameters : List (String × Value) := [
  ("$sort", .tuple [.text "-title, year", .text " ,"]), ("tag", .text "new,sale"),
  ("$skip", .list [.bool true, .text " +0_7 "]), ("$embed", .null), ("$limit", .null),
  ("tag", .tuple [.bytes [44], .null]), ("$sort", .text "title")]

def tightQuery : Query := Entries.ofList [
  ("$sort", Value.texts ["-title", "year", "title"]),
  ("tag", .list [.text "new,sale", .bytes [44], .null]), ("$skip", .int 7),
  ("$embed", Value.texts []), ("$limit", .null)]

theorem parsed_again_loose :
    parse 1 looseParameters = .ok tightQuery ∧ parse 1 tightQuery.toList = .ok tightQuery := by
  have hparsed : parse 1 looseParameters = .ok tightQuery := rfl
  exact ⟨hparsed, (parsed_again 1).1 looseParameters tightQuery hparsed⟩

end Query

end QueryPipeline
