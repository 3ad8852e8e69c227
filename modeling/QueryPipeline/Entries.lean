namespace QueryPipeline

@[ext] structure Entries (α : Type u) where
  toList : List (String × α)
  nodup_keys : (toList.map Prod.fst).Nodup

namespace Entries

def keys (entries : Entries α) : List String :=
  entries.toList.map Prod.fst

def empty : Entries α := ⟨[], .nil⟩

def isEmpty (entries : Entries α) : Bool :=
  entries.toList.isEmpty

def get? (entries : Entries α) (key : String) : Option α :=
  entries.toList.lookup key

def contains (entries : Entries α) (key : String) : Bool :=
  (entries.get? key).isSome

/-- A known key keeps its place and takes the new value; a new key goes last. -/
def putInto [DecidableEq κ] (key : κ) (value : α) : List (κ × α) → List (κ × α)
  | [] => [(key, value)]
  | (known, old) :: rest =>
      if known = key then (known, value) :: rest
      else (known, old) :: putInto key value rest

theorem keys_putInto [DecidableEq κ] (key : κ) (value : α) (entries : List (κ × α)) :
    (putInto key value entries).map Prod.fst =
      if key ∈ entries.map Prod.fst then entries.map Prod.fst
      else entries.map Prod.fst ++ [key] := by
  induction entries with
  | nil => simp [putInto]
  | cons entry rest ih =>
      obtain ⟨known, old⟩ := entry
      by_cases hknown : known = key
      · simp [putInto, hknown]
      · have hne : key ≠ known := fun h => hknown h.symm
        simp only [putInto, hknown, if_false, List.map_cons, ih, List.mem_cons, hne,
          false_or]
        split <;> simp

theorem nodup_keys_putInto [DecidableEq κ] (key : κ) (value : α)
    {entries : List (κ × α)} (h : (entries.map Prod.fst).Nodup) :
    ((putInto key value entries).map Prod.fst).Nodup := by
  rw [keys_putInto]
  split
  · exact h
  · rename_i hkey
    rw [List.nodup_append]
    refine ⟨h, by simp, ?_⟩
    intro known hknown other hother heq
    simp only [List.mem_singleton] at hother
    exact hkey (hother ▸ heq ▸ hknown)

def put (entries : Entries α) (key : String) (value : α) : Entries α :=
  ⟨putInto key value entries.toList, nodup_keys_putInto key value entries.nodup_keys⟩

def putNew (entries : Entries α) (key : String) (value : α) : Entries α :=
  if entries.contains key then entries else entries.put key value

/-- Each key at its first place, with its last value. -/
def ofList (pairs : List (String × α)) : Entries α :=
  pairs.foldl (fun entries pair => entries.put pair.1 pair.2) empty

def filterKeys (keep : String → Bool) (entries : Entries α) : Entries α :=
  ⟨entries.toList.filter fun entry => keep entry.1,
    entries.nodup_keys.sublist (List.Sublist.map _ List.filter_sublist)⟩

def mapValues (convert : String → α → β) (entries : Entries α) : Entries β :=
  ⟨entries.toList.map fun entry => (entry.1, convert entry.1 entry.2), by
    simpa [Function.comp_def] using entries.nodup_keys⟩

def mapKeys (rename : String → String) (entries : Entries α) : Entries α :=
  ofList (entries.toList.map fun entry => (rename entry.1, entry.2))

@[simp] theorem toList_empty : (empty : Entries α).toList = [] := rfl

@[simp] theorem toList_put (entries : Entries α) (key : String) (value : α) :
    (entries.put key value).toList = putInto key value entries.toList := rfl

theorem keys_put (entries : Entries α) (key : String) (value : α) :
    (entries.put key value).keys =
      if key ∈ entries.keys then entries.keys else entries.keys ++ [key] :=
  keys_putInto key value entries.toList

theorem get?_put_self (entries : Entries α) (key : String) (value : α) :
    (entries.put key value).get? key = some value := by
  show (putInto key value entries.toList).lookup key = some value
  induction entries.toList with
  | nil => simp [putInto]
  | cons entry rest ih =>
      obtain ⟨known, old⟩ := entry
      by_cases hknown : known = key
      · simp [putInto, hknown]
      · have hne : (key == known) = false := by
          simpa using fun h => hknown h.symm
        simp [putInto, hknown, List.lookup_cons, hne, ih]

theorem get?_put_of_ne (entries : Entries α) {key other : String} (value : α)
    (h : other ≠ key) : (entries.put key value).get? other = entries.get? other := by
  show (putInto key value entries.toList).lookup other = entries.toList.lookup other
  have hother : (other == key) = false := by simpa using h
  induction entries.toList with
  | nil => simp [putInto, List.lookup_cons, hother]
  | cons entry rest ih =>
      obtain ⟨known, old⟩ := entry
      by_cases hknown : known = key
      · subst hknown
        simp [putInto, List.lookup_cons, hother]
      · simp [putInto, hknown, List.lookup_cons, ih]

theorem get?_put (entries : Entries α) (key other : String) (value : α) :
    (entries.put key value).get? other =
      if other = key then some value else entries.get? other := by
  by_cases h : other = key
  · rw [if_pos h, h, get?_put_self]
  · rw [if_neg h, get?_put_of_ne entries value h]

theorem lookup_eq_none_iff_notMem [DecidableEq κ] {entries : List (κ × α)} {key : κ} :
    entries.lookup key = none ↔ key ∉ entries.map Prod.fst := by
  simp only [List.lookup_eq_none_iff, List.mem_map, bne_iff_ne, ne_eq]
  grind

theorem mem_iff_lookup [DecidableEq κ] {entries : List (κ × α)} {key : κ} {value : α}
    (hnodup : (entries.map Prod.fst).Nodup) :
    (key, value) ∈ entries ↔ entries.lookup key = some value := by
  induction entries with
  | nil => simp
  | cons entry rest ih =>
      obtain ⟨known, old⟩ := entry
      rw [List.map_cons, List.nodup_cons] at hnodup
      rw [List.mem_cons, List.lookup_cons, ih hnodup.2]
      by_cases hkey : key = known
      · subst hkey
        have hnone : rest.lookup key = none := lookup_eq_none_iff_notMem.mpr hnodup.1
        simp [hnone, eq_comm]
      · have hbeq : (key == known) = false := by simpa using hkey
        simp [hbeq, hkey]

theorem get?_eq_some_iff {entries : Entries α} {key : String} {value : α} :
    entries.get? key = some value ↔ (key, value) ∈ entries.toList :=
  (mem_iff_lookup entries.nodup_keys).symm

theorem get?_eq_none_iff {entries : Entries α} {key : String} :
    entries.get? key = none ↔ key ∉ entries.keys :=
  lookup_eq_none_iff_notMem

theorem contains_iff_mem_keys {entries : Entries α} {key : String} :
    entries.contains key = true ↔ key ∈ entries.keys := by
  rw [contains, Option.isSome_iff_ne_none, ne_eq, get?_eq_none_iff, Classical.not_not]

theorem mem_keys_of_get? {entries : Entries α} {key : String} {value : α}
    (h : entries.get? key = some value) : key ∈ entries.keys := by
  rw [← contains_iff_mem_keys, contains, h]
  rfl

@[simp] theorem get?_empty (key : String) : (empty : Entries α).get? key = none := rfl

@[simp] theorem ofList_nil : ofList ([] : List (String × α)) = empty := rfl

theorem ofList_concat (pairs : List (String × α)) (key : String) (value : α) :
    ofList (pairs ++ [(key, value)]) = (ofList pairs).put key value := by
  simp [ofList]

theorem putInto_ne_nil [DecidableEq κ] (key : κ) (value : α) (entries : List (κ × α)) :
    putInto key value entries ≠ [] := by
  cases entries with
  | nil => simp [putInto]
  | cons entry rest =>
      rw [putInto]
      split <;> simp

theorem isEmpty_ofList (pairs : List (String × α)) :
    (ofList pairs).isEmpty = pairs.isEmpty := by
  rcases pairs.eq_nil_or_concat with rfl | ⟨front, last, rfl⟩
  · rfl
  · have hput := putInto_ne_nil last.1 last.2 (ofList front).toList
    rw [List.concat_eq_append, ofList_concat, isEmpty, toList_put,
      List.isEmpty_eq_false_iff.mpr hput, List.isEmpty_eq_false_iff.mpr (by simp)]

theorem putInto_of_notMem [DecidableEq κ] {key : κ} {entries : List (κ × α)}
    (h : key ∉ entries.map Prod.fst) (value : α) :
    putInto key value entries = entries ++ [(key, value)] := by
  induction entries with
  | nil => rfl
  | cons entry rest ih =>
      obtain ⟨known, old⟩ := entry
      rw [List.map_cons, List.mem_cons, not_or] at h
      simp [putInto, Ne.symm h.1, ih h.2]

theorem toList_foldl_put {pairs : List (String × α)} {entries : Entries α}
    (hpairs : (pairs.map Prod.fst).Nodup)
    (hfresh : ∀ pair ∈ pairs, pair.1 ∉ entries.keys) :
    (pairs.foldl (fun known pair => known.put pair.1 pair.2) entries).toList =
      entries.toList ++ pairs := by
  induction pairs generalizing entries with
  | nil => simp
  | cons pair rest ih =>
      rw [List.map_cons, List.nodup_cons] at hpairs
      have hput : (entries.put pair.1 pair.2).toList = entries.toList ++ [pair] :=
        putInto_of_notMem (hfresh pair (by simp)) pair.2
      rw [List.foldl_cons, ih hpairs.2, hput, List.append_assoc, List.singleton_append]
      intro other hother hmem
      rw [keys, hput, List.map_append, List.mem_append] at hmem
      rcases hmem with hmem | hmem
      · exact hfresh other (by simp [hother]) hmem
      · rw [List.map_singleton, List.mem_singleton] at hmem
        exact hpairs.1 (List.mem_map.mpr ⟨other, hother, hmem⟩)

theorem toList_ofList {pairs : List (String × α)} (h : (pairs.map Prod.fst).Nodup) :
    (ofList pairs).toList = pairs :=
  toList_foldl_put h (by simp [keys])

@[simp] theorem ofList_toList (entries : Entries α) : ofList entries.toList = entries :=
  Entries.ext (toList_ofList entries.nodup_keys)

@[simp] theorem keys_mapValues (convert : String → α → β) (entries : Entries α) :
    (entries.mapValues convert).keys = entries.keys := by
  simp [keys, mapValues, Function.comp_def]

theorem get?_mapValues (convert : String → α → β) (entries : Entries α) (key : String) :
    (entries.mapValues convert).get? key = (entries.get? key).map (convert key) := by
  show (entries.toList.map _).lookup key = (entries.toList.lookup key).map (convert key)
  induction entries.toList with
  | nil => rfl
  | cons entry rest ih =>
      rw [List.map_cons, List.lookup_cons, List.lookup_cons, ih]
      cases hkey : key == entry.1 with
      | true => simp [beq_iff_eq.mp hkey]
      | false => rfl

theorem get?_filterKeys (keep : String → Bool) (entries : Entries α) (key : String) :
    (entries.filterKeys keep).get? key =
      if keep key then entries.get? key else none := by
  apply Option.ext
  intro value
  split
  · rename_i hkeep
    simp [get?_eq_some_iff, filterKeys, hkeep]
  · rename_i hkeep
    simp [get?_eq_some_iff, filterKeys, hkeep]

end Entries

end QueryPipeline
