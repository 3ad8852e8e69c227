import QueryPipeline.Proofs.Query.Requested
import QueryPipeline.Query.Normalize

namespace QueryPipeline

/-! The grammar of queries.  It says of each reserved key which values the key may hold, what
they turn into, and what is told of the first one that does not fit. -/

def Text.NonBlank (text : String) : Prop :=
  ∃ c ∈ text.toList, isBlank c = false

theorem Text.nonBlank_iff {text : String} : NonBlank text ↔ trim text ≠ "" := by
  rw [ne_eq, trim_eq_empty, NonBlank]
  simp

namespace Value

inductive Lists : Value → List String → Prop
  | text (s : String) : Lists (.text s) [s]
  | list (texts : List String) : Lists (.list (texts.map .text)) texts
  | tuple (texts : List String) : Lists (.tuple (texts.map .text)) texts

/-- The value is an integer or the text of one.  A truth value is none. -/
inductive Denotes : Value → Int → Prop
  | int (n : Int) : Denotes (.int n) n
  | text (h : Text.integer? s = some n) : Denotes (.text s) n

theorem lists_iff {value : Value} {texts : List String} (h : value ≠ .null) :
    Lists value texts ↔ value.asList = texts.map .text := by
  constructor
  · rintro (_ | _ | _) <;> rfl
  · intro hentries
    cases value with
    | null => exact absurd rfl h
    | list items =>
        rw [asList_list] at hentries
        exact hentries ▸ .list texts
    | tuple items =>
        rw [asList_tuple] at hentries
        exact hentries ▸ .tuple texts
    | text s =>
        obtain ⟨first, rest, rfl, hfirst, hrest⟩ := List.map_eq_cons_iff.mp hentries.symm
        cases hfirst
        cases List.map_eq_nil_iff.mp hrest
        exact .text s
    | _ =>
        obtain ⟨first, rest, rfl, hfirst, hrest⟩ := List.map_eq_cons_iff.mp hentries.symm
        cases hfirst

theorem Denotes.unique {value : Value} {m n : Int} (hm : value.Denotes m) (hn : value.Denotes n) :
    m = n := by
  cases hm with
  | int =>
      cases hn
      rfl
  | text hm =>
      cases hn with
      | text hn => exact Option.some.inj (hm.symm.trans hn)

end Value

namespace Query

structure Rule where
  key : String
  Turns : Value → Value → Prop
  Blames : Value → Rejection → Prop

def IsPath : Value → Prop
  | .text s => Text.NonBlank s
  | _ => False

/-- All entries have to be paths before the trimmed paths are looked at. -/
inductive PathFault (key : String) (complaint : Complaint) (Fits : String → Prop) :
    Value → Rejection → Prop
  | shape {found : Value} (entries : found.asList = before ++ entry :: after)
      (fine : ∀ other ∈ before, IsPath other) (bad : ¬IsPath entry) :
      PathFault key complaint Fits found ⟨key, .notPath, entry⟩
  | unfit {found : Value} (entries : found.asList = (before ++ s :: after).map .text)
      (paths : ∀ other ∈ before ++ s :: after, Text.NonBlank other)
      (fine : ∀ other ∈ before, Fits (Text.trim other)) (bad : ¬Fits (Text.trim s)) :
      PathFault key complaint Fits found ⟨key, complaint, .text (Text.trim s)⟩

inductive IntegerFault (key : String) (minimum : Int) : Value → Rejection → Prop
  | kind {found : Value} (bad : ∀ n, ¬found.Denotes n) :
      IntegerFault key minimum found ⟨key, .notInteger, found⟩
  | low {found : Value} (denotes : found.Denotes n) (bad : n < minimum) :
      IntegerFault key minimum found ⟨key, .below minimum, .int n⟩

theorem PathFault.key_eq {key : String} {complaint : Complaint} {Fits : String → Prop}
    {found : Value} {rejection : Rejection} (h : PathFault key complaint Fits found rejection) :
    rejection.key = key := by
  cases h <;> rfl

theorem IntegerFault.key_eq {key : String} {minimum : Int} {found : Value} {rejection : Rejection}
    (h : IntegerFault key minimum found rejection) : rejection.key = key := by
  cases h <;> rfl

def pathRule (key : String) (complaint : Complaint) (Fits : String → Prop)
    (arranged : List String → List String) : Rule where
  key := key
  Turns found normal := ∃ texts, found.Lists texts ∧
    (∀ s ∈ texts, Text.NonBlank s ∧ Fits (Text.trim s)) ∧
      normal = Value.texts (arranged (texts.map Text.trim))
  Blames := PathFault key complaint Fits

def integerRule (key : String) (minimum : Int) : Rule where
  key := key
  Turns found normal := ∃ n, found.Denotes n ∧ minimum ≤ n ∧ normal = .int n
  Blames := IntegerFault key minimum

@[simp] theorem pathRule_key (key : String) (complaint : Complaint) (Fits : String → Prop)
    (arranged : List String → List String) :
    (pathRule key complaint Fits arranged).key = key := rfl

@[simp] theorem integerRule_key (key : String) (minimum : Int) :
    (integerRule key minimum).key = key := rfl

theorem pathRule_turns_texts_iff {key : String} {complaint : Complaint} {Fits : String → Prop}
    {arranged : List String → List String} {paths : List String} {result : Value}
    (h : ∀ path ∈ paths, Text.trim path = path ∧ Text.NonBlank path) :
    (pathRule key complaint Fits arranged).Turns (Value.texts paths) result ↔
      (∀ path ∈ paths, Fits path) ∧ result = Value.texts (arranged paths) := by
  have hsame : paths.map Text.trim = paths := by
    rw [List.map_congr_left fun path hpath => (h path hpath).1, List.map_id']
  constructor
  · rintro ⟨given, hlists, hfits, rfl⟩
    have hne : Value.texts paths ≠ .null := nofun
    obtain rfl := Value.texts_inj.mp (congrArg Value.list ((Value.lists_iff hne).mp hlists))
    rw [hsame]
    exact ⟨fun path hpath => (h path hpath).1 ▸ (hfits path hpath).2, rfl⟩
  · rintro ⟨hfits, rfl⟩
    refine ⟨paths, .list paths, fun path hpath => ⟨(h path hpath).2, ?_⟩, by rw [hsame]⟩
    rw [(h path hpath).1]
    exact hfits path hpath

def FitsDepth (maxDepth : Int) (path : String) : Prop :=
  Path.depth path ≤ maxDepth

def NamesField (criterion : String) : Prop :=
  ∃ c ∈ criterion.toList, c ≠ '-'

def rules (maxDepth : Int) : List Rule := [
  pathRule embedKey (.tooDeep maxDepth) (FitsDepth maxDepth) List.eraseDups,
  pathRule sortKey .noField NamesField id,
  integerRule skipKey 0,
  integerRule limitKey 1]

theorem forall_mem_rules_iff {maxDepth : Int} {Holds : Rule → Prop} :
    (∀ rule ∈ rules maxDepth, Holds rule) ↔
      Holds (pathRule embedKey (.tooDeep maxDepth) (FitsDepth maxDepth) List.eraseDups) ∧
        Holds (pathRule sortKey .noField NamesField id) ∧
          Holds (integerRule skipKey 0) ∧ Holds (integerRule limitKey 1) := by
  simp [rules]

variable {query normal revised : Query} {key : String} {maxDepth : Int}

namespace Rule

def Accepts (rule : Rule) (query : Query) : Prop :=
  query.value rule.key = .null ∨ ∃ normal, rule.Turns (query.value rule.key) normal

def Rejects (rule : Rule) (query : Query) (rejection : Rejection) : Prop :=
  query.value rule.key ≠ .null ∧ rule.Blames (query.value rule.key) rejection

/-- A null value stays, and so does a key that is missing. -/
def Revises (rule : Rule) (query normal : Query) : Prop :=
  (query.value rule.key = .null ∧ normal.get? rule.key = query.get? rule.key) ∨
    ∃ value, rule.Turns (query.value rule.key) value ∧ normal.get? rule.key = some value

end Rule

/-- The outcome of a query that fits all rules. -/
structure Normalizes (rules : List Rule) (query normal : Query) : Prop where
  keys_eq : normal.keys = query.keys
  others : ∀ key, (∀ rule ∈ rules, rule.key ≠ key) → normal.get? key = query.get? key
  revises : ∀ rule ∈ rules, rule.Revises query normal

/-- The rejection by the first rule that the query does not fit. -/
def FirstRejects (rules : List Rule) (query : Query) (rejection : Rejection) : Prop :=
  ∃ before rule after, rules = before ++ rule :: after ∧
    (∀ earlier ∈ before, earlier.Accepts query) ∧ rule.Rejects query rejection

structure Check extends Rule where
  convert : Value → Except Rejection Value
  null_unfit : ∀ normal, ¬Turns .null normal
  ok_iff : ∀ {found normal : Value}, found ≠ .null →
    (convert found = .ok normal ↔ Turns found normal)
  error_iff : ∀ {found : Value} {rejection : Rejection}, found ≠ .null →
    (convert found = .error rejection ↔ Blames found rejection)

theorem trimmedPath_eq_ok_iff {entry : Value} {path : String} :
    trimmedPath key entry = .ok path ↔
      ∃ s, entry = .text s ∧ Text.NonBlank s ∧ Text.trim s = path := by
  cases entry with
  | text s =>
      rw [trimmedPath]
      by_cases hblank : Text.trim s = ""
      · simp [hblank, Text.nonBlank_iff]
      · simp [hblank, Text.nonBlank_iff]
  | _ => simp [trimmedPath]

theorem trimmedPath_eq_error_iff {entry : Value} {rejection : Rejection} :
    trimmedPath key entry = .error rejection ↔
      ¬IsPath entry ∧ rejection = ⟨key, .notPath, entry⟩ := by
  cases entry with
  | text s =>
      rw [trimmedPath, IsPath, Text.nonBlank_iff]
      by_cases hblank : Text.trim s = ""
      · simp [hblank, eq_comm]
      · simp [hblank]
  | _ => simp [trimmedPath, IsPath, eq_comm]

theorem exists_trimmedPath_iff {entry : Value} :
    (∃ path, trimmedPath key entry = .ok path) ↔ IsPath entry := by
  cases entry with
  | text s => simp [trimmedPath_eq_ok_iff, IsPath]
  | _ => simp [trimmedPath_eq_ok_iff, IsPath]

theorem trimmedPaths_eq_ok_iff {found : Value} {paths : List String} :
    trimmedPaths key found = .ok paths ↔
      ∃ texts : List String, found.asList = texts.map .text ∧ (∀ s ∈ texts, Text.NonBlank s) ∧
        texts.map Text.trim = paths := by
  rw [trimmedPaths]
  induction found.asList generalizing paths with
  | nil =>
      constructor
      · rintro ⟨⟩
        exact ⟨[], rfl, List.forall_mem_nil _, rfl⟩
      · rintro ⟨texts, htexts, _, rfl⟩
        cases List.map_eq_nil_iff.mp htexts.symm
        rfl
  | cons entry rest ih =>
      rw [List.mapM_cons, bind_eq_ok_iff]
      simp only [trimmedPath_eq_ok_iff, bind_eq_ok_iff, ih]
      constructor
      · rintro ⟨_, ⟨s, rfl, hs, rfl⟩, _, ⟨texts, rfl, htexts, rfl⟩, ⟨⟩⟩
        exact ⟨s :: texts, rfl, by simpa [hs] using htexts, rfl⟩
      · rintro ⟨texts, hentries, htexts, rfl⟩
        obtain ⟨s, others, rfl, rfl, rfl⟩ := List.map_eq_cons_iff.mp hentries.symm
        rw [List.forall_mem_cons] at htexts
        exact ⟨_, ⟨s, rfl, htexts.1, rfl⟩, _, ⟨others, rfl, htexts.2, rfl⟩, rfl⟩

theorem trimmedPaths_eq_error_iff {found : Value} {rejection : Rejection} :
    trimmedPaths key found = .error rejection ↔
      ∃ before entry after, found.asList = before ++ entry :: after ∧
        (∀ other ∈ before, IsPath other) ∧ ¬IsPath entry ∧
          rejection = ⟨key, .notPath, entry⟩ := by
  rw [trimmedPaths, mapM_eq_error_iff]
  simp only [exists_trimmedPath_iff, trimmedPath_eq_error_iff]

theorem blameFirst_eq_ok_iff {complaint : Complaint} {fails : String → Bool}
    {paths result : List String} :
    blameFirst key complaint fails paths = .ok result ↔
      (∀ path ∈ paths, fails path = false) ∧ paths = result := by
  rw [blameFirst]
  cases hfind : paths.find? fails with
  | none =>
      have hnone : ∀ path ∈ paths, fails path = false := by
        simpa using List.find?_eq_none.mp hfind
      simp only [Except.ok.injEq]
      exact ⟨fun heq => ⟨hnone, heq⟩, And.right⟩
  | some path =>
      have hfails := List.find?_some hfind
      have hmem := List.mem_of_find?_eq_some hfind
      simp only [reduceCtorEq, false_iff, not_and]
      intro hnone
      rw [hnone path hmem] at hfails
      cases hfails

theorem blameFirst_eq_error_iff {complaint : Complaint} {fails : String → Bool}
    {paths : List String} {rejection : Rejection} :
    blameFirst key complaint fails paths = .error rejection ↔
      ∃ before path after, paths = before ++ path :: after ∧
        (∀ other ∈ before, fails other = false) ∧ fails path = true ∧
          rejection = ⟨key, complaint, .text path⟩ := by
  rw [blameFirst]
  cases hfind : paths.find? fails with
  | none =>
      simp only [reduceCtorEq, false_iff]
      rintro ⟨before, path, after, rfl, _, hfails, _⟩
      have hnone := List.find?_eq_none.mp hfind path (by simp)
      exact hnone hfails
  | some path =>
      obtain ⟨hfails, before, after, rfl, hbefore⟩ := List.find?_eq_some_iff_append.mp hfind
      constructor
      · rintro ⟨⟩
        exact ⟨before, path, after, rfl, by simpa using hbefore, hfails, rfl⟩
      · rintro ⟨front, other, back, hsplit, hfront, hother, rfl⟩
        have hfirst : (before ++ path :: after).find? fails = some other := by
          rw [List.find?_eq_some_iff_append]
          exact ⟨hother, front, back, hsplit, by simpa using hfront⟩
        rw [hfind] at hfirst
        cases hfirst
        rfl

def normalPaths (key : String) (complaint : Complaint) (fails : String → Bool)
    (arranged : List String → List String) (found : Value) : Except Rejection Value := do
  let paths ← trimmedPaths key found
  let paths ← blameFirst key complaint fails paths
  return Value.texts (arranged paths)

section

variable {complaint : Complaint} {fails : String → Bool} {Fits : String → Prop}
  {arranged : List String → List String} {found : Value}
  (hfits : ∀ path, fails path = false ↔ Fits path)

include hfits

theorem normalPaths_eq_ok_iff {result : Value} (hfound : found ≠ .null) :
    normalPaths key complaint fails arranged found = .ok result ↔
      (pathRule key complaint Fits arranged).Turns found result := by
  simp only [normalPaths, bind_eq_ok_iff, trimmedPaths_eq_ok_iff, blameFirst_eq_ok_iff, pathRule,
    Value.lists_iff hfound, hfits]
  constructor
  · rintro ⟨_, ⟨texts, hentries, hpaths, rfl⟩, _, ⟨hall, rfl⟩, ⟨⟩⟩
    refine ⟨texts, hentries, fun s hs => ⟨hpaths s hs, ?_⟩, rfl⟩
    exact hall _ (List.mem_map_of_mem hs)
  · rintro ⟨texts, hentries, hall, rfl⟩
    refine ⟨_, ⟨texts, hentries, fun s hs => (hall s hs).1, rfl⟩, _, ⟨?_, rfl⟩, rfl⟩
    intro path hpath
    obtain ⟨s, hs, rfl⟩ := List.mem_map.mp hpath
    exact (hall s hs).2

theorem normalPaths_eq_error_iff {rejection : Rejection} :
    normalPaths key complaint fails arranged found = .error rejection ↔
      (pathRule key complaint Fits arranged).Blames found rejection := by
  have hfails : ∀ path, fails path = true ↔ ¬Fits path := by
    intro path
    rw [← hfits, Bool.not_eq_false]
  simp only [normalPaths, bind_eq_error_iff, trimmedPaths_eq_ok_iff, trimmedPaths_eq_error_iff,
    blameFirst_eq_error_iff, pathRule, hfits, hfails]
  constructor
  · rintro (⟨before, entry, after, hentries, hfine, hbad, rfl⟩ |
      ⟨_, ⟨texts, hentries, hpaths, rfl⟩, h⟩)
    · exact .shape hentries hfine hbad
    · rcases h with ⟨front, path, back, hsplit, hfine, hbad, rfl⟩ | ⟨_, _, h⟩
      · obtain ⟨before, others, rfl, rfl, hothers⟩ := List.map_eq_append_iff.mp hsplit
        obtain ⟨s, after, rfl, rfl, rfl⟩ := List.map_eq_cons_iff.mp hothers
        exact .unfit hentries hpaths (fun s hs => hfine _ (List.mem_map_of_mem hs)) hbad
      · cases h
  · rintro (⟨hentries, hfine, hbad⟩ | ⟨hentries, hpaths, hfine, hbad⟩)
    · exact .inl ⟨_, _, _, hentries, hfine, hbad, rfl⟩
    · refine .inr ⟨_, ⟨_, hentries, hpaths, rfl⟩, .inl ⟨_, _, _, List.map_append, ?_, hbad, rfl⟩⟩
      intro path hpath
      obtain ⟨s, hs, rfl⟩ := List.mem_map.mp hpath
      exact hfine s hs

end

def pathCheck (key : String) (complaint : Complaint) (fails : String → Bool) (Fits : String → Prop)
    (arranged : List String → List String) (hfits : ∀ path, fails path = false ↔ Fits path) :
    Check where
  toRule := pathRule key complaint Fits arranged
  convert := normalPaths key complaint fails arranged
  null_unfit := by
    rintro _ ⟨_, ⟨⟩, _⟩
  ok_iff := normalPaths_eq_ok_iff hfits
  error_iff := fun _ => normalPaths_eq_error_iff hfits

section

variable {minimum n : Int} {found : Value}

theorem atLeast_eq_ok_iff {result : Value} :
    atLeast key minimum n = .ok result ↔ minimum ≤ n ∧ result = .int n := by
  rw [atLeast]
  by_cases hlow : n < minimum
  · simp [hlow, Int.not_le.mpr hlow]
  · simp [hlow, Int.not_lt.mp hlow, eq_comm]

theorem atLeast_eq_error_iff {rejection : Rejection} :
    atLeast key minimum n = .error rejection ↔
      n < minimum ∧ rejection = ⟨key, .below minimum, .int n⟩ := by
  rw [atLeast]
  by_cases hlow : n < minimum
  · simp [hlow, eq_comm]
  · simp [hlow]

theorem normalInteger_of_denotes (h : found.Denotes n) :
    normalInteger key minimum found = atLeast key minimum n := by
  cases h with
  | int => rfl
  | text h => rw [normalInteger, h]

theorem normalInteger_of_not_denotes (h : ∀ n, ¬found.Denotes n) :
    normalInteger key minimum found = .error ⟨key, .notInteger, found⟩ := by
  cases found with
  | int n => exact absurd (.int n) (h n)
  | text s =>
      rw [normalInteger]
      cases hs : Text.integer? s with
      | none => rfl
      | some n => exact absurd (.text hs) (h n)
  | _ => rfl

end

def integerCheck (key : String) (minimum : Int) : Check where
  toRule := integerRule key minimum
  convert := normalInteger key minimum
  null_unfit := by
    rintro _ ⟨_, ⟨⟩, _⟩
  ok_iff := by
    intro found normal _
    simp only [integerRule]
    by_cases hdenotes : ∃ n, found.Denotes n
    · obtain ⟨n, hn⟩ := hdenotes
      rw [normalInteger_of_denotes hn, atLeast_eq_ok_iff]
      constructor
      · exact fun h => ⟨n, hn, h⟩
      · rintro ⟨m, hm, h⟩
        exact hm.unique hn ▸ h
    · rw [normalInteger_of_not_denotes (not_exists.mp hdenotes)]
      simp only [reduceCtorEq, false_iff]
      rintro ⟨n, hn, _⟩
      exact hdenotes ⟨n, hn⟩
  error_iff := by
    intro found rejection _
    simp only [integerRule]
    by_cases hdenotes : ∃ n, found.Denotes n
    · obtain ⟨n, hn⟩ := hdenotes
      rw [normalInteger_of_denotes hn, atLeast_eq_error_iff]
      constructor
      · rintro ⟨hlow, rfl⟩
        exact .low hn hlow
      · rintro (hnot | ⟨hm, hlow⟩)
        · exact absurd hn (hnot n)
        · exact hm.unique hn ▸ ⟨hlow, rfl⟩
    · rw [normalInteger_of_not_denotes (not_exists.mp hdenotes)]
      constructor
      · rintro ⟨⟩
        exact .kind (not_exists.mp hdenotes)
      · rintro (_ | ⟨hn, _⟩)
        · rfl
        · exact absurd ⟨_, hn⟩ hdenotes

end Query

end QueryPipeline
