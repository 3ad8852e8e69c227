import QueryPipeline.Proofs.Query.Normal

namespace QueryPipeline

/-! A query cut down to some of its keys.  A check of one key neither reads nor writes
another, so cutting down and checking may be done in either order. -/

namespace Entries

variable {keep : String → Bool} {key : String}

theorem filter_putInto_of_pos (h : keep key = true) (value : α) (entries : List (String × α)) :
    (putInto key value entries).filter (fun entry => keep entry.1) =
      putInto key value (entries.filter fun entry => keep entry.1) := by
  induction entries with
  | nil => simp [putInto, h]
  | cons entry rest ih =>
      obtain ⟨known, old⟩ := entry
      by_cases hknown : known = key
      · simp [putInto, hknown, h]
      · cases hkeep : keep known with
        | true => simp [putInto, hknown, hkeep, ih]
        | false => simp [putInto, hknown, hkeep, ih]

theorem filter_putInto_of_neg (h : keep key = false) (value : α) (entries : List (String × α)) :
    (putInto key value entries).filter (fun entry => keep entry.1) =
      entries.filter fun entry => keep entry.1 := by
  induction entries with
  | nil => simp [putInto, h]
  | cons entry rest ih =>
      obtain ⟨known, old⟩ := entry
      by_cases hknown : known = key
      · simp [putInto, hknown, h]
      · simp [putInto, hknown, List.filter_cons, ih]

theorem filterKeys_put_of_pos (h : keep key = true) (entries : Entries α) (value : α) :
    (entries.put key value).filterKeys keep = (entries.filterKeys keep).put key value :=
  Entries.ext (filter_putInto_of_pos h value entries.toList)

theorem filterKeys_put_of_neg (h : keep key = false) (entries : Entries α) (value : α) :
    (entries.put key value).filterKeys keep = entries.filterKeys keep :=
  Entries.ext (filter_putInto_of_neg h value entries.toList)

theorem filterKeys_filterKeys (keep other : String → Bool) (entries : Entries α) :
    (entries.filterKeys other).filterKeys keep =
      entries.filterKeys fun key => keep key && other key :=
  Entries.ext List.filter_filter

end Entries

namespace Query

variable {query normal revised : Query} {key omitted : String} {maxDepth : Int}
  {convert : Value → Except Rejection Value} {keep : String → Bool}

def readKeys : List String :=
  [embedKey, sortKey, skipKey, limitKey]

def without (query : Query) (omitted : String) : Query :=
  query.filterKeys (· != omitted)

def embedsOnly (query : Query) : Query :=
  query.filterKeys (· == embedKey)

theorem value_filterKeys_of_pos (query : Query) (h : keep key = true) :
    Query.value (query.filterKeys keep) key = query.value key := by
  rw [value, Entries.get?_filterKeys, if_pos h, value]

theorem value_filterKeys_of_neg (query : Query) (h : keep key = false) :
    Query.value (query.filterKeys keep) key = .null := by
  rw [value, Entries.get?_filterKeys, h]
  rfl

theorem value_without_of_ne (query : Query) (h : key ≠ omitted) :
    (query.without omitted).value key = query.value key :=
  query.value_filterKeys_of_pos (by simpa using h)

@[simp] theorem value_embedsOnly (query : Query) :
    query.embedsOnly.value embedKey = query.value embedKey :=
  query.value_filterKeys_of_pos (by simp)

theorem filters_filterKeys (query : Query) (h : ∀ key, isReserved key = false → keep key = true) :
    filters (query.filterKeys keep) = query.filters := by
  rw [filters, Entries.filterKeys_filterKeys, filters]
  congr 1
  funext key
  cases hkey : isReserved key with
  | true => rfl
  | false => simp [h key hkey]

theorem filters_without (query : Query) (h : isReserved omitted = true) :
    (query.without omitted).filters = query.filters := by
  apply query.filters_filterKeys
  rintro key hkey
  simp only [bne_iff_ne, ne_eq]
  rintro rfl
  simp [h] at hkey

theorem revise_filterKeys (h : keep key = true) :
    revise key convert (query.filterKeys keep) =
      (query.revise key convert).map (Entries.filterKeys keep) := by
  rw [revise, revise, query.value_filterKeys_of_pos h]
  split
  · rfl
  · cases convert (query.value key) with
    | error rejection => rfl
    | ok value =>
        simp only [Except.map]
        rw [Entries.filterKeys_put_of_pos h]

theorem filterKeys_of_revise (h : keep key = false)
    (hrevise : query.revise key convert = .ok revised) :
    revised.filterKeys keep = query.filterKeys keep := by
  rw [revise] at hrevise
  split at hrevise
  · cases hrevise
    rfl
  · cases hconvert : convert (query.value key) with
    | error rejection => simp [hconvert, Except.map] at hrevise
    | ok value =>
        rw [hconvert] at hrevise
        cases hrevise
        exact Entries.filterKeys_put_of_neg h query value

theorem revise_filterKeys_of_ok (keep : String → Bool)
    (h : query.revise key convert = .ok revised) :
    revise key convert (query.filterKeys keep) = .ok (revised.filterKeys keep) := by
  cases hkeep : keep key with
  | true =>
      rw [revise_filterKeys hkeep, h]
      rfl
  | false => rw [revise, query.value_filterKeys_of_neg hkeep, filterKeys_of_revise hkeep h]

theorem normalize_filterKeys_of_ok (keep : String → Bool)
    (h : query.normalize maxDepth = .ok normal) :
    normalize maxDepth (query.filterKeys keep) = .ok (normal.filterKeys keep) := by
  obtain ⟨embedded, hembed, h⟩ := bind_eq_ok_iff.mp h
  obtain ⟨sorted, hsort, h⟩ := bind_eq_ok_iff.mp h
  obtain ⟨skipped, hskip, hlimit⟩ := bind_eq_ok_iff.mp h
  rw [normalize, revise_filterKeys_of_ok keep hembed]
  simp only [bind, Except.bind]
  rw [revise_filterKeys_of_ok keep hsort]
  simp only
  rw [revise_filterKeys_of_ok keep hskip]
  exact revise_filterKeys_of_ok keep hlimit

/-- Where no key that means something goes, the failures stay the same as well. -/
theorem normalize_filterKeys (h : ∀ key ∈ readKeys, keep key = true) :
    normalize maxDepth (query.filterKeys keep) =
      (query.normalize maxDepth).map (Entries.filterKeys keep) := by
  have hembed := h embedKey (by simp [readKeys])
  have hsort := h sortKey (by simp [readKeys])
  have hskip := h skipKey (by simp [readKeys])
  have hlimit := h limitKey (by simp [readKeys])
  rw [normalize, normalize, revise_filterKeys hembed]
  cases query.revise embedKey (normalEmbeds maxDepth) with
  | error rejection => rfl
  | ok embedded =>
      simp only [Except.map, bind, Except.bind]
      rw [revise_filterKeys hsort]
      cases embedded.revise sortKey normalSort with
      | error rejection => rfl
      | ok sorted =>
          simp only [Except.map]
          rw [revise_filterKeys hskip]
          cases sorted.revise skipKey (normalInteger skipKey minSkip) with
          | error rejection => rfl
          | ok skipped => exact revise_filterKeys hlimit

theorem filterKeys_of_normalize (h : ∀ key ∈ readKeys, keep key = false)
    (hnormal : query.normalize maxDepth = .ok normal) :
    normal.filterKeys keep = query.filterKeys keep := by
  obtain ⟨embedded, hembed, hnormal⟩ := bind_eq_ok_iff.mp hnormal
  obtain ⟨sorted, hsort, hnormal⟩ := bind_eq_ok_iff.mp hnormal
  obtain ⟨skipped, hskip, hlimit⟩ := bind_eq_ok_iff.mp hnormal
  rw [filterKeys_of_revise (h limitKey (by simp [readKeys])) hlimit,
    filterKeys_of_revise (h skipKey (by simp [readKeys])) hskip,
    filterKeys_of_revise (h sortKey (by simp [readKeys])) hsort,
    filterKeys_of_revise (h embedKey (by simp [readKeys])) hembed]

theorem filters_of_normalize (h : query.normalize maxDepth = .ok normal) :
    normal.filters = query.filters :=
  filterKeys_of_normalize (by decide) h

theorem normalize_without_embeds (h : query.normalize maxDepth = .ok normal) :
    (query.without embedKey).normalize maxDepth = .ok (normal.without embedKey) :=
  normalize_filterKeys_of_ok _ h

def trimmedText? : Value → Option String
  | .text s => some (Text.trim s)
  | _ => none

def requests (query : Query) : List String :=
  (query.value embedKey).asList.filterMap trimmedText?

theorem filterMap_trimmedText? {found : Value} {texts : List String} (h : found.Lists texts) :
    found.asList.filterMap trimmedText? = texts.map Text.trim := by
  have hentries : found.asList = texts.map .text := by
    cases h <;> rfl
  rw [hentries, List.filterMap_map]
  exact congrFun List.filterMap_eq_map texts

/-- The embeds of an accepted query are its requests, each where it first occurs. -/
theorem embed_of_normalize (h : query.normalize maxDepth = .ok normal) :
    (normal.value embedKey).asList = query.requests.eraseDups.map .text := by
  obtain ⟨hembed, _⟩ := forall_mem_rules_iff.mp (normalize_eq_ok_iff.mp h).revises
  have hvalues := hembed.value_eq
  rw [pathRule_key] at hvalues
  rcases hvalues with ⟨hquery, hnormal⟩ | ⟨texts, hlists, _, hvalue⟩
  · rw [requests, hquery, hnormal]
    rfl
  · rw [requests, filterMap_trimmedText? hlists, hvalue]
    rfl

theorem exists_embedPaths_of_normalize (h : query.normalize maxDepth = .ok normal) :
    ∃ requested, normal.embedPaths = .ok requested ∧
      ∀ path, path ∈ requested ↔ path ∈ query.requests := by
  refine ⟨_, embedPaths_of_texts (embed_of_normalize h), ?_⟩
  intro path
  rw [List.mem_eraseDups, List.mem_eraseDups]

end Query

end QueryPipeline
