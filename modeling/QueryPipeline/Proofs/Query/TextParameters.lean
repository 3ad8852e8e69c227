import QueryPipeline.Proofs.Query.Gathered

namespace QueryPipeline

theorem eraseDups_filter (keep : String → Bool) (items : List String) :
    (items.filter keep).eraseDups = items.eraseDups.filter keep := by
  induction items using List.reverseRecOn with
  | nil => rfl
  | append_singleton front last ih =>
      rw [List.filter_append, eraseDups_concat]
      cases hlast : keep last with
      | true =>
          rw [List.filter_singleton, hlast, cond_true, eraseDups_concat, ih]
          by_cases hmem : last ∈ front
          · simp [hmem, hlast]
          · simp [hmem, hlast]
      | false =>
          rw [List.filter_singleton, hlast, cond_false, List.append_nil, ih]
          by_cases hmem : last ∈ front
          · simp [hmem]
          · simp [hmem, hlast]

namespace Text

theorem split_append (separator : Char) (left right : String) :
    split separator (left ++ String.singleton separator ++ right) =
      split separator left ++ split separator right := by
  have hcut : (left.toList ++ separator :: right.toList).splitOn separator =
      left.toList.splitOn separator ++ right.toList.splitOn separator := by
    simp only [List.splitOn_eq_splitOnP]
    exact List.splitOnP_append_cons _ _ (beq_self_eq_true separator)
  rw [split, String.toList_append, String.toList_append, String.toList_singleton,
    List.append_assoc, List.singleton_append, hcut, List.map_append, split, split]

end Text

namespace Query

variable {pairs : List (String × String)} {texts : List String} {key other : String}
  {query normal : Query} {maxDepth minimum : Int}

section

variable {complaint : Complaint} {Fits : String → Prop} {arranged : List String → List String}

theorem turns_textFragments_iff {result : Value} :
    (pathRule key complaint Fits arranged).Turns
        (Value.texts (texts.flatMap textFragments)) result ↔
      (∀ path ∈ texts.flatMap textFragments, Fits path) ∧
        result = Value.texts (arranged (texts.flatMap textFragments)) := by
  apply pathRule_turns_texts_iff
  intro path hpath
  obtain ⟨text, _, hpath⟩ := List.mem_flatMap.mp hpath
  exact mem_textFragments hpath

theorem value_of_get?_listed (h : query.get? key = listed id texts) :
    texts = [] ∧ query.value key = .null ∨
      texts ≠ [] ∧ query.value key = Value.texts (texts.flatMap textFragments) := by
  rw [value, h]
  cases texts with
  | nil => exact .inl ⟨rfl, rfl⟩
  | cons first rest => exact .inr ⟨List.cons_ne_nil first rest, rfl⟩

theorem pathRule_accepts_iff (h : query.get? key = listed id texts) :
    (pathRule key complaint Fits arranged).Accepts query ↔
      ∀ path ∈ texts.flatMap textFragments, Fits path := by
  rcases value_of_get?_listed h with ⟨rfl, hvalue⟩ | ⟨_, hvalue⟩
  · exact ⟨fun _ => nofun, fun _ => .inl hvalue⟩
  · have hkey : (pathRule key complaint Fits arranged).key = key := rfl
    rw [Rule.Accepts, pathRule_key, hvalue]
    simp only [turns_textFragments_iff]
    constructor
    · rintro (hnull | ⟨_, hfits, _⟩)
      · cases hnull
      · exact hfits
    · exact fun hfits => .inr ⟨_, hfits, rfl⟩

theorem get?_of_pathRule_revises (h : query.get? key = listed id texts)
    (hrevises : (pathRule key complaint Fits arranged).Revises query normal) :
    normal.get? key = listed arranged texts := by
  rw [Rule.Revises, pathRule_key] at hrevises
  rcases value_of_get?_listed h with ⟨rfl, hvalue⟩ | ⟨hne, hvalue⟩
  · rcases hrevises with ⟨_, hsame⟩ | ⟨_, ⟨_, hlists, _⟩, _⟩
    · exact hsame.trans h
    · rw [hvalue] at hlists
      cases hlists
  · rw [hvalue] at hrevises
    rcases hrevises with ⟨hnull, _⟩ | ⟨result, hturns, hresult⟩
    · cases hnull
    · rw [hresult, (turns_textFragments_iff.mp hturns).2]
      cases texts with
      | nil => exact absurd rfl hne
      | cons first rest => rfl

end

theorem denotes_text_iff {text : String} {n : Int} :
    (Value.text text).Denotes n ↔ Text.integer? text = some n :=
  ⟨fun | .text h => h, .text⟩

theorem value_of_get?_latest (h : query.get? key = latest texts) :
    texts.getLast? = none ∧ query.value key = .null ∨
      ∃ text, texts.getLast? = some text ∧ query.value key = .text text := by
  rw [value, h, latest]
  cases texts.getLast? with
  | none => exact .inl ⟨rfl, rfl⟩
  | some text => exact .inr ⟨text, rfl, rfl⟩

theorem integerRule_accepts_iff (h : query.get? key = latest texts) :
    (integerRule key minimum).Accepts query ↔
      ∀ text ∈ texts.getLast?, ∃ n, Text.integer? text = some n ∧ minimum ≤ n := by
  rw [Rule.Accepts, integerRule_key]
  rcases value_of_get?_latest h with ⟨hlast, hvalue⟩ | ⟨text, hlast, hvalue⟩
  · rw [hlast, hvalue]
    exact ⟨fun _ _ htext => absurd htext (Option.not_mem_none _), fun _ => .inl rfl⟩
  · rw [hlast, hvalue]
    simp only [integerRule, denotes_text_iff, Option.mem_some_iff, forall_eq']
    constructor
    · rintro (hnull | ⟨_, n, hn, hminimum, _⟩)
      · cases hnull
      · exact ⟨n, hn, hminimum⟩
    · rintro ⟨n, hn, hminimum⟩
      exact .inr ⟨_, n, hn, hminimum, rfl⟩

theorem get?_of_integerRule_revises (h : query.get? key = latest texts)
    (hrevises : (integerRule key minimum).Revises query normal) :
    normal.get? key = denoted texts := by
  rw [Rule.Revises, integerRule_key] at hrevises
  rw [denoted]
  rcases value_of_get?_latest h with ⟨hlast, hvalue⟩ | ⟨text, hlast, hvalue⟩
  · rcases hrevises with ⟨_, hsame⟩ | ⟨_, ⟨_, hdenotes, _⟩, _⟩
    · rw [hsame, h, latest, hlast]
      rfl
    · rw [hvalue] at hdenotes
      cases hdenotes
  · rw [hvalue] at hrevises
    rcases hrevises with ⟨hnull, _⟩ | ⟨_, ⟨n, hn, _, rfl⟩, hresult⟩
    · cases hnull
    · rw [hresult, hlast, Option.bind_some, denotes_text_iff.mp hn, Option.map_some]

/-- The causes of a refusal.  Of a page key, only what is given last can be one. -/
inductive Refused (maxDepth : Int) (pairs : List (String × String)) : Prop
  | embed {path : String} (mem : path ∈ (textsUnder pairs embedKey).flatMap textFragments)
      (deep : maxDepth < Path.depth path)
  | sort {criterion : String} (mem : criterion ∈ (textsUnder pairs sortKey).flatMap textFragments)
      (bare : ∀ c ∈ criterion.toList, c = '-')
  | skip {text : String} (last : (textsUnder pairs skipKey).getLast? = some text)
      (bad : ∀ n, Text.integer? text = some n → n < 0)
  | limit {text : String} (last : (textsUnder pairs limitKey).getLast? = some text)
      (bad : ∀ n, Text.integer? text = some n → n < 1)

theorem accepts_iff_not_refused (h : Gathers (listed id) (listed id) latest pairs query) :
    (∀ rule ∈ rules maxDepth, rule.Accepts query) ↔ ¬Refused maxDepth pairs := by
  rw [forall_mem_rules_iff, pathRule_accepts_iff h.embed, pathRule_accepts_iff h.sort,
    integerRule_accepts_iff h.skip, integerRule_accepts_iff h.limit]
  constructor
  · rintro ⟨hembed, hsort, hskip, hlimit⟩
      (⟨hmem, hdeep⟩ | ⟨hmem, hbare⟩ | ⟨hlast, hbad⟩ | ⟨hlast, hbad⟩)
    · exact Int.not_lt.mpr (hembed _ hmem) hdeep
    · obtain ⟨c, hc, hne⟩ := hsort _ hmem
      exact hne (hbare c hc)
    · obtain ⟨n, hn, hminimum⟩ := hskip _ hlast
      exact Int.not_lt.mpr hminimum (hbad n hn)
    · obtain ⟨n, hn, hminimum⟩ := hlimit _ hlast
      exact Int.not_lt.mpr hminimum (hbad n hn)
  · intro hfine
    refine ⟨fun path hpath => ?_, fun criterion hcriterion => ?_, fun text htext => ?_,
      fun text htext => ?_⟩
    · exact Int.not_lt.mp fun hdeep => hfine (.embed hpath hdeep)
    · by_contra hbare
      refine hfine (.sort hcriterion fun c hc => ?_)
      by_contra hne
      exact hbare ⟨c, hc, hne⟩
    · by_contra hbad
      refine hfine (.skip htext fun n hn => Int.not_le.mp fun hminimum => hbad ⟨n, hn, hminimum⟩)
    · by_contra hbad
      refine hfine (.limit htext fun n hn => Int.not_le.mp fun hminimum => hbad ⟨n, hn, hminimum⟩)

theorem gathers_of_normalize (h : Gathers (listed id) (listed id) latest pairs query)
    (hnormal : query.normalize maxDepth = .ok normal) :
    Gathers (listed List.eraseDups) (listed id) denoted pairs normal := by
  obtain ⟨hkeys, hothers, hrevises⟩ := normalize_eq_ok_iff.mp hnormal
  obtain ⟨hembed, hsort, hskip, hlimit⟩ := forall_mem_rules_iff.mp hrevises
  refine ⟨hkeys.trans h.keys_eq, get?_of_pathRule_revises h.embed hembed,
    get?_of_pathRule_revises h.sort hsort, get?_of_integerRule_revises h.skip hskip,
    get?_of_integerRule_revises h.limit hlimit, fun key hkey => ?_⟩
  simp only [readKeys, List.mem_cons, List.not_mem_nil, or_false, not_or] at hkey
  obtain ⟨hembedKey, hsortKey, hskipKey, hlimitKey⟩ := hkey
  have hother : ∀ rule ∈ rules maxDepth, rule.key ≠ key := forall_mem_rules_iff.mpr
    ⟨Ne.symm hembedKey, Ne.symm hsortKey, Ne.symm hskipKey, Ne.symm hlimitKey⟩
  rw [hothers key hother]
  exact h.others key (by simp [readKeys, hembedKey, hsortKey, hskipKey, hlimitKey])

theorem textFragments_append (left right : String) :
    textFragments (left ++ "," ++ right) = textFragments left ++ textFragments right := by
  have hcomma : "," = String.singleton ',' := rfl
  rw [textFragments, hcomma, Text.split_append, List.map_append, List.filter_append]
  rfl

theorem textFragments_intercalate (h : texts ≠ []) :
    textFragments (",".intercalate texts) = texts.flatMap textFragments := by
  induction texts with
  | nil => exact absurd rfl h
  | cons first rest ih =>
      cases rest with
      | nil => rw [String.intercalate_singleton, List.flatMap_singleton]
      | cons second others =>
          rw [String.intercalate_cons_cons, textFragments_append, ih (List.cons_ne_nil _ _)]
          rfl

/-- All that is given under the key, in one text at the place of the first one. -/
def joinUnder (key : String) : List (String × String) → List (String × String)
  | [] => []
  | (name, text) :: rest =>
      if name = key then
        (name, ",".intercalate (text :: textsUnder rest key)) :: rest.filter (·.1 != key)
      else (name, text) :: joinUnder key rest

theorem textsUnder_cons (name text : String) (rest : List (String × String)) (key : String) :
    textsUnder ((name, text) :: rest) key =
      if name = key then text :: textsUnder rest key else textsUnder rest key := by
  by_cases hname : name = key
  · simp [textsUnder, hname]
  · simp [textsUnder, hname]

theorem textsUnder_filter_self (pairs : List (String × String)) (key : String) :
    textsUnder (pairs.filter (·.1 != key)) key = [] := by
  simp [textsUnder, List.filter_filter]

theorem textsUnder_filter_of_ne (pairs : List (String × String)) (h : other ≠ key) :
    textsUnder (pairs.filter (·.1 != key)) other = textsUnder pairs other := by
  rw [textsUnder, List.filter_filter, textsUnder]
  congr 2
  funext pair
  by_cases hpair : pair.1 = other
  · simp [hpair, h]
  · simp [hpair]

theorem textsUnder_joinUnder_of_ne (h : other ≠ key) :
    textsUnder (joinUnder key pairs) other = textsUnder pairs other := by
  induction pairs with
  | nil => rfl
  | cons pair rest ih =>
      obtain ⟨name, text⟩ := pair
      rw [joinUnder]
      split
      · rename_i hname
        have hother : name ≠ other := fun heq => h (heq.symm.trans hname)
        rw [textsUnder_cons, if_neg hother, textsUnder_filter_of_ne rest h, textsUnder_cons,
          if_neg hother]
      · rw [textsUnder_cons, textsUnder_cons, ih]

theorem listed_joinUnder (arranged : List String → List String) :
    listed arranged (textsUnder (joinUnder key pairs) key) =
      listed arranged (textsUnder pairs key) := by
  induction pairs with
  | nil => rfl
  | cons pair rest ih =>
      obtain ⟨name, text⟩ := pair
      rw [joinUnder]
      split
      · rename_i hname
        rw [textsUnder_cons, if_pos hname, textsUnder_filter_self, textsUnder_cons, if_pos hname,
          listed, listed, List.flatMap_singleton, textFragments_intercalate (List.cons_ne_nil _ _)]
        · exact nofun
        · exact nofun
      · rename_i hname
        rw [textsUnder_cons, if_neg hname, textsUnder_cons, if_neg hname, ih]

theorem keys_joinUnder (key : String) (pairs : List (String × String)) :
    ((joinUnder key pairs).map Prod.fst).eraseDups = (pairs.map Prod.fst).eraseDups := by
  induction pairs with
  | nil => rfl
  | cons pair rest ih =>
      obtain ⟨name, text⟩ := pair
      rw [joinUnder]
      split
      · rename_i hname
        have hrest : (rest.filter (·.1 != key)).map Prod.fst =
            (rest.map Prod.fst).filter (· != key) := by
          rw [List.filter_map]
          rfl
        rw [List.map_cons, List.map_cons, List.eraseDups_cons, List.eraseDups_cons, hrest,
          List.filter_filter, hname]
        simp [bne]
      · rw [List.map_cons, List.map_cons, List.eraseDups_cons, List.eraseDups_cons,
          eraseDups_filter, eraseDups_filter, ih]

example : joinUnder "$embed" [("a", "1"), ("$embed", "x,y"), ("b", "2"), ("$embed", " z")] =
    [("a", "1"), ("$embed", "x,y, z"), ("b", "2")] := by decide

def listKeys : List String :=
  [embedKey, sortKey]

theorem Gathers.of_joinUnder {amounts : List String → Option Value} (hkey : key ∈ listKeys)
    (h : Gathers (listed id) (listed id) amounts (joinUnder key pairs) query) :
    Gathers (listed id) (listed id) amounts pairs query := by
  have hlisted : ∀ other, listed id (textsUnder (joinUnder key pairs) other) =
      listed id (textsUnder pairs other) := by
    intro other
    by_cases hother : other = key
    · rw [hother, listed_joinUnder]
    · rw [textsUnder_joinUnder_of_ne hother]
  have hsame : ∀ other, other ∉ listKeys →
      textsUnder (joinUnder key pairs) other = textsUnder pairs other :=
    fun other hother => textsUnder_joinUnder_of_ne fun heq => hother (heq ▸ hkey)
  refine ⟨h.keys_eq.trans (keys_joinUnder key pairs), h.embed.trans (hlisted embedKey),
    h.sort.trans (hlisted sortKey), ?_, ?_, fun other hother => ?_⟩
  · rw [h.skip, hsame skipKey (by decide)]
  · rw [h.limit, hsame limitKey (by decide)]
  · rw [h.others other hother, hsame other fun hmem => ?_]
    have hsubset : listKeys ⊆ readKeys := by decide
    exact hother (hsubset hmem)

theorem parse_joinUnder (maxDepth : Int) (pairs : List (String × String)) (hkey : key ∈ listKeys) :
    parse maxDepth (ofTexts (joinUnder key pairs)) = parse maxDepth (ofTexts pairs) := by
  obtain ⟨arranged, harrange, hgathers⟩ := exists_arranged pairs
  obtain ⟨joined, hjoin, hjoined⟩ := exists_arranged (joinUnder key pairs)
  rw [parse, parse, harrange, hjoin, (hjoined.of_joinUnder hkey).unique hgathers]

/-- Read from texts, a query has all keys that are given and holds all that they stand for,
unless the parameters are refused, and there is no other outcome. -/
theorem text_parameters_gathered (maxDepth : Int) (pairs : List (String × String)) :
    (∀ query, parse maxDepth (ofTexts pairs) = .ok query →
      Gathers (listed List.eraseDups) (listed id) denoted pairs query) ∧
    ((∃ rejection, parse maxDepth (ofTexts pairs) = .error (.rejected rejection)) ↔
      Refused maxDepth pairs) ∧
    ((∃ query, parse maxDepth (ofTexts pairs) = .ok query) ↔ ¬Refused maxDepth pairs) ∧
    ∀ key ∈ listKeys,
      parse maxDepth (ofTexts (joinUnder key pairs)) = parse maxDepth (ofTexts pairs) := by
  obtain ⟨arranged, harrange, hgathers⟩ := exists_arranged pairs
  have hparse : parse maxDepth (ofTexts pairs) =
      (arranged.normalize maxDepth).mapError .rejected := by
    rw [parse, harrange]
    rfl
  have hfine : (∃ normal, arranged.normalize maxDepth = .ok normal) ↔ ¬Refused maxDepth pairs :=
    exists_normalize_iff_accepts.trans (accepts_iff_not_refused hgathers)
  refine ⟨?_, ?_, ?_, fun key hkey => parse_joinUnder maxDepth pairs hkey⟩
  · intro query hquery
    rw [hparse, mapError_eq_ok_iff] at hquery
    exact gathers_of_normalize hgathers hquery
  · rw [hparse]
    cases hnormal : arranged.normalize maxDepth with
    | ok normal =>
        refine ⟨?_, fun hrefused => absurd hrefused (hfine.mp ⟨normal, hnormal⟩)⟩
        rintro ⟨_, hrejected⟩
        cases hrejected
    | error rejection =>
        refine ⟨fun _ => ?_, fun _ => ⟨rejection, rfl⟩⟩
        by_contra hrefused
        obtain ⟨normal, hok⟩ := hfine.mpr hrefused
        rw [hnormal] at hok
        cases hok
  · rw [hparse]
    simp only [mapError_eq_ok_iff]
    exact hfine

def interleavedPairs : List (String × String) := [
  ("$sort", "-title"), ("tag", "new"), ("$embed", " author ,,editor"), ("$limit", "many"),
  ("tag", "sale"), ("$embed", "shop"), ("status", "a,b"), ("$limit", " 20 ")]

def interleavedQuery : Query := Entries.ofList [
  ("$sort", Value.texts ["-title"]), ("tag", Value.texts ["new", "sale"]),
  ("$embed", Value.texts ["author", "editor", "shop"]), ("$limit", .int 20),
  ("status", .text "a,b")]

theorem text_parameters_gathered_interleaved :
    parse 1 (ofTexts interleavedPairs) = .ok interleavedQuery ∧
      Gathers (listed List.eraseDups) (listed id) denoted interleavedPairs interleavedQuery ∧
      embedKey ∈ listKeys ∧
      parse 1 (ofTexts (joinUnder embedKey interleavedPairs)) =
        parse 1 (ofTexts interleavedPairs) := by
  have hparsed : parse 1 (ofTexts interleavedPairs) = .ok interleavedQuery := rfl
  have hkey : embedKey ∈ listKeys := by decide
  obtain ⟨hgathers, _, _, hjoin⟩ := text_parameters_gathered 1 interleavedPairs
  exact ⟨hparsed, hgathers interleavedQuery hparsed, hkey, hjoin embedKey hkey⟩

end Query

end QueryPipeline
