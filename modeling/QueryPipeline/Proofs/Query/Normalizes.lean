import QueryPipeline.Proofs.Query.Grammar

namespace QueryPipeline

namespace Entries

theorem toList_eq_filterMap (entries : Entries α) :
    entries.toList = entries.keys.filterMap fun key => (entries.get? key).map (key, ·) := by
  have hself : ∀ entry ∈ entries.toList,
      (entries.get? entry.1).map (entry.1, ·) = some entry := by
    intro entry hentry
    rw [get?_eq_some_iff.mpr hentry, Option.map_some]
  rw [keys, List.filterMap_map]
  exact (List.filterMap_some.symm.trans (List.filterMap_congr fun entry hentry =>
    (hself entry hentry).symm))

theorem ext_of_get? {left right : Entries α} (hkeys : left.keys = right.keys)
    (hget : ∀ key, left.get? key = right.get? key) : left = right := by
  apply Entries.ext
  rw [toList_eq_filterMap left, toList_eq_filterMap right, hkeys]
  simp only [hget]

/-- At most the value under one key is another one. -/
structure Changes (key : String) (found : Option α) (entries next : Entries α) : Prop where
  keys_eq : next.keys = entries.keys
  get?_self : next.get? key = found
  get?_of_ne : ∀ other, other ≠ key → next.get? other = entries.get? other

theorem changes_self {entries : Entries α} {key : String} {found : Option α}
    (h : entries.get? key = found) : Changes key found entries entries :=
  ⟨rfl, h, fun _ _ => rfl⟩

theorem changes_put {entries : Entries α} {key : String} (h : key ∈ entries.keys) (value : α) :
    Changes key (some value) entries (entries.put key value) where
  keys_eq := by rw [keys_put, if_pos h]
  get?_self := get?_put_self entries key value
  get?_of_ne := fun _ hother => get?_put_of_ne entries value hother

theorem Changes.unique {entries left right : Entries α} {key : String} {found : Option α}
    (hleft : Changes key found entries left) (hright : Changes key found entries right) :
    left = right := by
  refine ext_of_get? (hleft.keys_eq.trans hright.keys_eq.symm) fun other => ?_
  by_cases hother : other = key
  · rw [hother, hleft.get?_self, hright.get?_self]
  · rw [hleft.get?_of_ne other hother, hright.get?_of_ne other hother]

theorem exists_changes {left right : Entries α} (hkeys : right.keys = left.keys) (key : String) :
    ∃ next, Changes key (right.get? key) left next := by
  cases hvalue : right.get? key with
  | none =>
      rw [get?_eq_none_iff, hkeys] at hvalue
      exact ⟨left, changes_self (get?_eq_none_iff.mpr hvalue)⟩
  | some value => exact ⟨left.put key value, changes_put (hkeys ▸ mem_keys_of_get? hvalue) value⟩

end Entries

namespace Query

variable {query normal revised left right : Query} {key : String} {maxDepth : Int} {check : Check}

theorem value_congr (h : left.get? key = right.get? key) : left.value key = right.value key := by
  rw [value, h, value]

theorem value_of_get? {found : Value} (h : query.get? key = some found) :
    query.value key = found := by
  rw [value, h, Option.getD_some]

theorem mem_keys_of_value_ne_null (h : query.value key ≠ .null) : key ∈ query.keys := by
  rw [← Entries.contains_iff_mem_keys, Entries.contains, ← Option.ne_none_iff_isSome]
  intro hnone
  rw [value, hnone] at h
  exact h rfl

theorem Rule.Accepts.congr {rule : Rule} (h : rule.Accepts query)
    (hquery : left.value rule.key = query.value rule.key) : rule.Accepts left := by
  rwa [Rule.Accepts, hquery]

theorem Rule.Revises.congr {rule : Rule} {other : Query} (h : rule.Revises query normal)
    (hquery : left.get? rule.key = query.get? rule.key)
    (hnormal : other.get? rule.key = normal.get? rule.key) : rule.Revises left other := by
  rwa [Rule.Revises, value_congr hquery, hquery, hnormal]

theorem Rule.Revises.value_eq {rule : Rule} (h : rule.Revises query normal) :
    (query.value rule.key = .null ∧ normal.value rule.key = .null) ∨
      rule.Turns (query.value rule.key) (normal.value rule.key) := by
  rcases h with ⟨hnull, hsame⟩ | ⟨value, hturns, hvalue⟩
  · exact .inl ⟨hnull, (value_congr hsame).trans hnull⟩
  · exact .inr (value_of_get? hvalue ▸ hturns)

structure Rule.Step (rule : Rule) (query next : Query) : Prop where
  changes : Entries.Changes rule.key (next.get? rule.key) query next
  revises : rule.Revises query next

theorem revise_eq_ok_iff :
    query.revise check.key check.convert = .ok revised ↔ check.Step query revised := by
  rw [revise]
  split
  · rename_i hnull
    constructor
    · rintro ⟨⟩
      exact ⟨Entries.changes_self rfl, .inl ⟨hnull, rfl⟩⟩
    · rintro ⟨hchanges, ⟨_, hsame⟩ | ⟨value, hturns, _⟩⟩
      · rw [(Entries.changes_self hsame.symm).unique hchanges]
      · rw [hnull] at hturns
        exact absurd hturns (check.null_unfit value)
  · rename_i hnull
    have hput := Entries.changes_put (mem_keys_of_value_ne_null hnull)
    constructor
    · intro h
      obtain ⟨value, hvalue, rfl⟩ := map_eq_ok_iff.mp h
      have hget := (hput value).get?_self
      exact ⟨hget ▸ hput value, .inr ⟨value, (check.ok_iff hnull).mp hvalue, hget⟩⟩
    · rintro ⟨hchanges, ⟨hvalue, _⟩ | ⟨value, hturns, hget⟩⟩
      · exact absurd hvalue hnull
      · refine map_eq_ok_iff.mpr ⟨value, (check.ok_iff hnull).mpr hturns, ?_⟩
        exact (hput value).unique (hget ▸ hchanges)

theorem revise_eq_error_iff {rejection : Rejection} :
    query.revise check.key check.convert = .error rejection ↔ check.Rejects query rejection := by
  rw [revise, Rule.Rejects]
  split
  · rename_i hnull
    simp [hnull]
  · rename_i hnull
    rw [map_eq_error_iff, check.error_iff hnull]
    exact (and_iff_right hnull).symm

theorem exists_revise_iff_accepts :
    (∃ revised, query.revise check.key check.convert = .ok revised) ↔ check.Accepts query := by
  rw [revise, Rule.Accepts]
  split
  · rename_i hnull
    exact ⟨fun _ => .inl hnull, fun _ => ⟨query, rfl⟩⟩
  · rename_i hnull
    simp only [map_eq_ok_iff, check.ok_iff hnull]
    constructor
    · rintro ⟨_, value, hturns, _⟩
      exact .inr ⟨value, hturns⟩
    · rintro (h | ⟨value, hturns⟩)
      · exact absurd h hnull
      · exact ⟨_, value, hturns, rfl⟩

theorem normalizes_nil_iff : Normalizes [] query normal ↔ query = normal := by
  constructor
  · rintro ⟨hkeys, hothers, _⟩
    exact Entries.ext_of_get? hkeys.symm fun key => (hothers key (List.forall_mem_nil _)).symm
  · rintro rfl
    exact ⟨rfl, fun _ _ => rfl, List.forall_mem_nil _⟩

theorem normalizes_cons_iff {rule : Rule} {rest : List Rule}
    (hne : ∀ other ∈ rest, other.key ≠ rule.key) :
    Normalizes (rule :: rest) query normal ↔
      ∃ next, rule.Step query next ∧ Normalizes rest next normal := by
  constructor
  · rintro ⟨hkeys, hothers, hrevises⟩
    obtain ⟨hfirst, hrevises⟩ := List.forall_mem_cons.mp hrevises
    obtain ⟨next, hchanges⟩ := Entries.exists_changes hkeys rule.key
    refine ⟨next, ⟨hchanges.get?_self ▸ hchanges, hfirst.congr rfl hchanges.get?_self⟩, ?_⟩
    refine ⟨hkeys.trans hchanges.keys_eq.symm, fun key hkey => ?_, fun other hother => ?_⟩
    · by_cases hrule : key = rule.key
      · rw [hrule, hchanges.get?_self]
      · rw [hchanges.get?_of_ne key hrule]
        exact hothers key (List.forall_mem_cons.mpr ⟨Ne.symm hrule, hkey⟩)
    · have hframe := hchanges.get?_of_ne other.key (hne other hother)
      exact (hrevises other hother).congr hframe rfl
  · rintro ⟨next, ⟨hchanges, hfirst⟩, hnormal⟩
    refine ⟨hnormal.keys_eq.trans hchanges.keys_eq, fun key hkey => ?_,
      List.forall_mem_cons.mpr ⟨hfirst.congr rfl (hnormal.others rule.key hne), ?_⟩⟩
    · obtain ⟨hrule, hothers⟩ := List.forall_mem_cons.mp hkey
      rw [hnormal.others key hothers, hchanges.get?_of_ne key (Ne.symm hrule)]
    · intro other hother
      have hframe := hchanges.get?_of_ne other.key (hne other hother)
      exact (hnormal.revises other hother).congr hframe.symm rfl

theorem firstRejects_cons_iff {rule : Rule} {rest : List Rule} {rejection : Rejection} :
    FirstRejects (rule :: rest) query rejection ↔
      rule.Rejects query rejection ∨ rule.Accepts query ∧ FirstRejects rest query rejection := by
  constructor
  · rintro ⟨before, first, after, hrules, haccepts, hrejects⟩
    cases before with
    | nil =>
        cases hrules
        exact .inl hrejects
    | cons head others =>
        cases hrules
        obtain ⟨hhead, hothers⟩ := List.forall_mem_cons.mp haccepts
        exact .inr ⟨hhead, others, first, after, rfl, hothers, hrejects⟩
  · rintro (hrejects | ⟨haccept, before, first, after, rfl, haccepts, hrejects⟩)
    · exact ⟨[], rule, rest, rfl, nofun, hrejects⟩
    · exact ⟨rule :: before, first, after, rfl,
        List.forall_mem_cons.mpr ⟨haccept, haccepts⟩, hrejects⟩

theorem firstRejects_congr {rules : List Rule} {rejection : Rejection}
    (h : ∀ rule ∈ rules, left.get? rule.key = right.get? rule.key) :
    FirstRejects rules left rejection ↔ FirstRejects rules right rejection := by
  induction rules with
  | nil => simp [FirstRejects]
  | cons rule rest ih =>
      obtain ⟨hrule, hrest⟩ := List.forall_mem_cons.mp h
      rw [firstRejects_cons_iff, firstRejects_cons_iff, ih hrest, Rule.Rejects, Rule.Accepts,
        value_congr hrule, Rule.Rejects, Rule.Accepts]

def runChecks (checks : List Check) (query : Query) : Except Rejection Query :=
  checks.foldlM (fun query check => query.revise check.key check.convert) query

theorem runChecks_cons (checks : List Check) (query : Query) :
    runChecks (check :: checks) query =
      query.revise check.key check.convert >>= runChecks checks :=
  List.foldlM_cons

theorem key_ne_of_nodup {checks : List Check}
    (h : ((check :: checks).map (·.key)).Nodup) :
    ∀ rule ∈ checks.map Check.toRule, rule.key ≠ check.key := by
  rintro rule hrule heq
  obtain ⟨other, hother, rfl⟩ := List.mem_map.mp hrule
  exact (List.nodup_cons.mp h).1 (List.mem_map.mpr ⟨other, hother, heq⟩)

theorem runChecks_eq_ok_iff {checks : List Check} (h : (checks.map (·.key)).Nodup) :
    runChecks checks query = .ok normal ↔ Normalizes (checks.map Check.toRule) query normal := by
  induction checks generalizing query with
  | nil =>
      rw [List.map_nil, normalizes_nil_iff]
      exact Iff.of_eq (Except.ok.injEq query normal)
  | cons check rest ih =>
      rw [runChecks_cons, bind_eq_ok_iff, List.map_cons, normalizes_cons_iff (key_ne_of_nodup h)]
      simp only [revise_eq_ok_iff, ih (List.nodup_cons.mp h).2]

theorem runChecks_eq_error_iff {checks : List Check} (h : (checks.map (·.key)).Nodup)
    {rejection : Rejection} :
    runChecks checks query = .error rejection ↔
      FirstRejects (checks.map Check.toRule) query rejection := by
  induction checks generalizing query with
  | nil =>
      constructor
      · exact nofun
      · rintro ⟨before, _, _, hrules, _⟩
        cases before <;> cases hrules
  | cons check rest ih =>
      rw [runChecks_cons, bind_eq_error_iff, List.map_cons, firstRejects_cons_iff,
        revise_eq_error_iff, ← exists_revise_iff_accepts, ← exists_and_right]
      simp only [ih (List.nodup_cons.mp h).2]
      refine or_congr_right (exists_congr fun revised => and_congr_right fun hrevised => ?_)
      -- What the first check writes is not read by the others.
      have hchanges := (revise_eq_ok_iff.mp hrevised).changes
      exact firstRejects_congr fun rule hrule =>
        hchanges.get?_of_ne rule.key (key_ne_of_nodup h rule hrule)

theorem isTooDeep_eq_false_iff (path : String) :
    isTooDeep maxDepth path = false ↔ FitsDepth maxDepth path := by
  rw [isTooDeep, decide_eq_false_iff_not, FitsDepth, Int.not_lt]

theorem lacksField_eq_false_iff (criterion : String) :
    lacksField criterion = false ↔ NamesField criterion := by
  simp [lacksField, NamesField]

def checks (maxDepth : Int) : List Check := [
  pathCheck embedKey (.tooDeep maxDepth) (isTooDeep maxDepth) (FitsDepth maxDepth)
    List.eraseDups isTooDeep_eq_false_iff,
  pathCheck sortKey .noField lacksField NamesField id lacksField_eq_false_iff,
  integerCheck skipKey minSkip,
  integerCheck limitKey minLimit]

theorem normalize_eq_runChecks (maxDepth : Int) (query : Query) :
    query.normalize maxDepth = runChecks (checks maxDepth) query := by
  simp only [checks, runChecks, List.foldlM_cons, List.foldlM_nil, bind_pure]
  rfl

theorem nodup_checks (maxDepth : Int) : ((checks maxDepth).map (·.key)).Nodup := by
  show [embedKey, sortKey, skipKey, limitKey].Nodup
  decide

theorem map_toRule_checks (maxDepth : Int) :
    (checks maxDepth).map Check.toRule = rules maxDepth := rfl

theorem normalize_eq_ok_iff :
    query.normalize maxDepth = .ok normal ↔ Normalizes (rules maxDepth) query normal := by
  rw [normalize_eq_runChecks, runChecks_eq_ok_iff (nodup_checks maxDepth), map_toRule_checks]

theorem normalize_eq_error_iff {rejection : Rejection} :
    query.normalize maxDepth = .error rejection ↔
      FirstRejects (rules maxDepth) query rejection := by
  rw [normalize_eq_runChecks, runChecks_eq_error_iff (nodup_checks maxDepth), map_toRule_checks]

theorem Check.not_accepts_of_rejects {rejection : Rejection}
    (h : check.Rejects query rejection) : ¬check.Accepts query := by
  rw [← exists_revise_iff_accepts, revise_eq_error_iff.mpr h]
  exact nofun

theorem exists_normalize_iff_accepts :
    (∃ normal, query.normalize maxDepth = .ok normal) ↔
      ∀ rule ∈ rules maxDepth, rule.Accepts query := by
  constructor
  · rintro ⟨normal, hnormal⟩ rule hrule
    refine ((normalize_eq_ok_iff.mp hnormal).revises rule hrule).imp And.left ?_
    rintro ⟨value, hturns, _⟩
    exact ⟨value, hturns⟩
  · intro haccepts
    cases hnormal : query.normalize maxDepth with
    | ok normal => exact ⟨normal, rfl⟩
    | error rejection =>
        obtain ⟨before, rule, after, hrules, _, hrejects⟩ := normalize_eq_error_iff.mp hnormal
        have hmem : rule ∈ rules maxDepth := by simp [hrules]
        have haccept := haccepts rule hmem
        rw [← map_toRule_checks] at hmem
        obtain ⟨check, _, rfl⟩ := List.mem_map.mp hmem
        exact absurd haccept (check.not_accepts_of_rejects hrejects)

/-- A query is rejected exactly where a rule does not accept what is under its key, and the
first such rule says why.  Otherwise only what is under the keys of the rules changes. -/
theorem normalize_follows_grammar (maxDepth : Int) (query : Query) :
    ((∃ normal, query.normalize maxDepth = .ok normal) ↔
        ∀ rule ∈ rules maxDepth, rule.Accepts query) ∧
      (∀ normal, query.normalize maxDepth = .ok normal ↔
        Normalizes (rules maxDepth) query normal) ∧
      ∀ rejection, query.normalize maxDepth = .error rejection ↔
        FirstRejects (rules maxDepth) query rejection :=
  ⟨exists_normalize_iff_accepts, fun _ => normalize_eq_ok_iff, fun _ => normalize_eq_error_iff⟩

/-- Embeds are looked at first, and a blank one is told of before one that is too deep. -/
example : normalize 1 (Entries.ofList [("$limit", .bool true),
    ("$embed", .tuple [.text "meta.author", .text " "])]) =
      .error ⟨embedKey, .notPath, .text " "⟩ :=
  rfl

end Query

end QueryPipeline
