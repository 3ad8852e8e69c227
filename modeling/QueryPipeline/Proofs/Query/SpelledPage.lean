import QueryPipeline.Proofs.Query.Reported
import QueryPipeline.Proofs.Text.Spelling

namespace QueryPipeline.Query

variable {query left right normal : Query} {key text : String} {maxDepth minimum n : Int}
  {rejection : Rejection}

/-- The rule finds the same in both queries, or makes nothing of the difference. -/
def Rule.Equates (rule : Rule) (left right : Query) : Prop :=
  left.get? rule.key = right.get? rule.key ∨
    left.value rule.key ≠ .null ∧ right.value rule.key ≠ .null ∧
      (∀ normal, rule.Turns (left.value rule.key) normal ↔
        rule.Turns (right.value rule.key) normal) ∧
      ∀ rejection, rule.Blames (left.value rule.key) rejection ↔
        rule.Blames (right.value rule.key) rejection

namespace Rule.Equates

variable {rule : Rule}

theorem revises (h : rule.Equates left right) (hleft : rule.Revises left normal) :
    rule.Revises right normal := by
  rcases h with hsame | ⟨hne, _, hturns, _⟩
  · exact hleft.congr hsame.symm rfl
  · rcases hleft with ⟨hnull, _⟩ | ⟨value, hvalue, hget⟩
    · exact absurd hnull hne
    · exact .inr ⟨value, (hturns value).mp hvalue, hget⟩

theorem accepts (h : rule.Equates left right) (hleft : rule.Accepts left) : rule.Accepts right := by
  rcases h with hsame | ⟨hne, _, hturns, _⟩
  · exact hleft.congr (value_congr hsame.symm)
  · rcases hleft with hnull | ⟨value, hvalue⟩
    · exact absurd hnull hne
    · exact .inr ⟨value, (hturns value).mp hvalue⟩

theorem rejects (h : rule.Equates left right) (hleft : rule.Rejects left rejection) :
    rule.Rejects right rejection := by
  rcases h with hsame | ⟨_, hne, _, hblames⟩
  · rwa [Rule.Rejects, ← value_congr hsame]
  · exact ⟨hne, (hblames rejection).mp hleft.2⟩

end Rule.Equates

theorem FirstRejects.of_equates {rules : List Rule}
    (hrules : ∀ rule ∈ rules, rule.Equates left right) (h : FirstRejects rules left rejection) :
    FirstRejects rules right rejection := by
  obtain ⟨before, rule, after, rfl, haccepts, hrejects⟩ := h
  refine ⟨before, rule, after, rfl, fun earlier hearlier => ?_, ?_⟩
  · exact (hrules earlier (List.mem_append_left _ hearlier)).accepts (haccepts earlier hearlier)
  · exact (hrules rule (List.mem_append_right _ List.mem_cons_self)).rejects hrejects

theorem normalize_eq_of_equates (hkeys : left.keys = right.keys)
    (hothers : ∀ key, (∀ rule ∈ rules maxDepth, rule.key ≠ key) → left.get? key = right.get? key)
    (hrules : ∀ rule ∈ rules maxDepth, rule.Equates left right) :
    left.normalize maxDepth = right.normalize maxDepth := by
  cases hleft : left.normalize maxDepth with
  | ok normal =>
      obtain ⟨hsame, hkept, hrevises⟩ := normalize_eq_ok_iff.mp hleft
      apply Eq.symm
      rw [normalize_eq_ok_iff]
      refine ⟨hsame.trans hkeys, fun key hkey => ?_, fun rule hrule => ?_⟩
      · rw [hkept key hkey, hothers key hkey]
      · exact (hrules rule hrule).revises (hrevises rule hrule)
  | error rejection =>
      apply Eq.symm
      rw [normalize_eq_error_iff] at hleft ⊢
      exact hleft.of_equates hrules

theorem denotes_iff {found : Value} {m : Int} (h : found.Denotes n) : found.Denotes m ↔ m = n := by
  constructor
  · exact fun hm => hm.unique h
  · rintro rfl
    exact h

theorem integerFault_iff {found : Value} (h : found.Denotes n) :
    IntegerFault key minimum found rejection ↔
      n < minimum ∧ rejection = ⟨key, .below minimum, .int n⟩ := by
  constructor
  · rintro (hnot | ⟨hdenotes, hlow⟩)
    · exact absurd h (hnot n)
    · rw [(denotes_iff h).mp hdenotes] at hlow ⊢
      exact ⟨hlow, rfl⟩
  · rintro ⟨hlow, rfl⟩
    exact .low h hlow

theorem ne_null_of_denotes {found : Value} (h : found.Denotes n) : found ≠ .null := by
  rintro rfl
  cases h

theorem integerRule_equates (hleft : (left.value key).Denotes n)
    (hright : (right.value key).Denotes n) : (integerRule key minimum).Equates left right := by
  refine .inr ⟨ne_null_of_denotes hleft, ne_null_of_denotes hright, fun normal => ?_,
    fun rejection => ?_⟩
  · simp only [integerRule, denotes_iff hleft, denotes_iff hright]
  · exact (integerFault_iff hleft).trans (integerFault_iff hright).symm

def pageKeys : List (String × Int) :=
  [(skipKey, 0), (limitKey, 1)]

theorem forall_mem_pageKeys_iff {Holds : String × Int → Prop} :
    (∀ page ∈ pageKeys, Holds page) ↔ Holds (skipKey, 0) ∧ Holds (limitKey, 1) := by
  simp [pageKeys]

theorem integerRule_mem_rules :
    ∀ page ∈ pageKeys, integerRule page.1 page.2 ∈ rules maxDepth :=
  forall_mem_pageKeys_iff.mpr ⟨by simp [rules], by simp [rules]⟩

theorem rule_eq_of_key_eq {rule other : Rule} (hrule : rule ∈ rules maxDepth)
    (hother : other ∈ rules maxDepth) (hkey : rule.key = other.key) : rule = other := by
  have hnodup : ((rules maxDepth).map (·.key)).Nodup := nodup_checks maxDepth
  exact List.inj_on_of_nodup_map hnodup hrule hother hkey

section

variable {page : String × Int} (hpage : page ∈ pageKeys)

include hpage

theorem normalize_put_congr {found other : Value} (hfound : found.Denotes n)
    (hother : other.Denotes n) (query : Query) :
    normalize maxDepth (query.put page.1 found) = normalize maxDepth (query.put page.1 other) := by
  apply normalize_eq_of_equates
  · rw [Entries.keys_put, Entries.keys_put]
  · intro key hkey
    have hne : key ≠ page.1 := Ne.symm (hkey _ (integerRule_mem_rules page hpage))
    rw [Entries.get?_put_of_ne query found hne, Entries.get?_put_of_ne query other hne]
  · intro rule hrule
    by_cases hkey : rule.key = page.1
    · rw [rule_eq_of_key_eq hrule (integerRule_mem_rules page hpage) hkey]
      apply integerRule_equates (n := n)
      · rwa [value_put_self]
      · rwa [value_put_self]
    · left
      rw [Entries.get?_put_of_ne query found hkey, Entries.get?_put_of_ne query other hkey]

theorem get?_of_normalize_put {found : Value} (hfound : found.Denotes n)
    (h : normalize maxDepth (query.put page.1 found) = .ok normal) :
    page.2 ≤ n ∧ normal.get? page.1 = some (.int n) := by
  have hrevises := (normalize_eq_ok_iff.mp h).revises _ (integerRule_mem_rules page hpage)
  rw [Rule.Revises, integerRule_key, value_put_self] at hrevises
  rcases hrevises with ⟨hnull, _⟩ | ⟨_, ⟨m, hm, hminimum, rfl⟩, hget⟩
  · exact absurd hnull (ne_null_of_denotes hfound)
  · rw [(denotes_iff hfound).mp hm] at hminimum hget
    exact ⟨hminimum, hget⟩

theorem eq_below_of_normalize_put {found : Value} (hfound : found.Denotes n)
    (h : normalize maxDepth (query.put page.1 found) = .error rejection)
    (hkey : rejection.key = page.1) :
    n < page.2 ∧ rejection = ⟨page.1, .below page.2, .int n⟩ := by
  obtain ⟨before, rule, after, hrules, _, _, hblames⟩ := normalize_eq_error_iff.mp h
  have hmem : rule ∈ rules maxDepth := by simp [hrules]
  rw [key_eq_of_blames _ rejection rule hmem hblames] at hkey
  rw [rule_eq_of_key_eq hmem (integerRule_mem_rules page hpage) hkey, integerRule_key,
    value_put_self] at hblames
  exact (integerFault_iff hfound).mp hblames

end

/-- An integer and any text that spells it have the same outcome under a page key.  What is
accepted is the integer, and what is told of one that is too small is the integer as well. -/
theorem spelled_as_integer (maxDepth : Int) (query : Query) :
    (∀ n : Int, (Nat.toDigits 10 n.natAbs).length < 4300 → Text.Spells n (toString n)) ∧
    ∀ (n : Int) (text : String), Text.Spells n text → ∀ page ∈ pageKeys,
      normalize maxDepth (query.put page.1 (.text text)) =
          normalize maxDepth (query.put page.1 (.int n)) ∧
        (∀ normal, normalize maxDepth (query.put page.1 (.text text)) = .ok normal →
          page.2 ≤ n ∧ normal.get? page.1 = some (.int n)) ∧
        ∀ rejection, normalize maxDepth (query.put page.1 (.text text)) = .error rejection →
          rejection.key = page.1 →
            n < page.2 ∧ rejection = ⟨page.1, .below page.2, .int n⟩ := by
  refine ⟨fun n hlength => Text.spells_toString (Nat.le_of_lt hlength), ?_⟩
  intro n text hspells page hpage
  have hdenotes : (Value.text text).Denotes n := .text (Text.integer?_of_spells hspells)
  exact ⟨normalize_put_congr hpage hdenotes (.int n) query,
    fun normal hnormal => get?_of_normalize_put hpage hdenotes hnormal,
    fun rejection hrejection => eq_below_of_normalize_put hpage hdenotes hrejection⟩

def distantQuery : Query :=
  Entries.ofList [("$limit", .null), ("status", .text "open")]

theorem spells_seven : Text.Spells 7 "\t+0_07 " := by
  show Text.Spells 7 (String.ofList (['\t'] ++ (['+'] ++ ['0', '_', '0', '7']) ++ [' ']))
  have hspaced : Text.Spaced (Text.paddedDigits 2 7) ['0', '_', '0', '7'] :=
    .apart '0' (.joined '0' (.one '7'))
  have htab : ∀ c ∈ ['\t'], Text.isBlank c = true := List.forall_mem_singleton.mpr rfl
  have hspace : ∀ c ∈ [' '], Text.isBlank c = true := List.forall_mem_singleton.mpr rfl
  exact .intro _ _ 2 htab hspace (.plus (by decide)) hspaced (by decide)

theorem spelled_as_integer_seven :
    (Text.Spells 7 "\t+0_07 " ∧ (limitKey, 1) ∈ pageKeys ∧
      normalize 16 (distantQuery.put limitKey (.text "\t+0_07 ")) =
        normalize 16 (distantQuery.put limitKey (.int 7))) ∧
    (Nat.toDigits 10 3).length < 4300 ∧ (skipKey, 0) ∈ pageKeys ∧
      normalize 16 (distantQuery.put skipKey (.text (toString (-3 : Int)))) =
        .error ⟨skipKey, .below 0, .int (-3)⟩ ∧
      normalize 16 (distantQuery.put skipKey (.int (-3))) =
        .error ⟨skipKey, .below 0, .int (-3)⟩ := by
  have hlimit : (limitKey, (1 : Int)) ∈ pageKeys := by simp [pageKeys]
  have hskip : (skipKey, (0 : Int)) ∈ pageKeys := by simp [pageKeys]
  obtain ⟨hrendered, hspelled⟩ := spelled_as_integer 16 distantQuery
  have hthree : (Nat.toDigits 10 3).length < 4300 := by decide
  obtain ⟨hsame, _, _⟩ := hspelled (-3) _ (hrendered (-3) hthree) (skipKey, 0) hskip
  have hbelow : normalize 16 (distantQuery.put skipKey (.int (-3))) =
      .error ⟨skipKey, .below 0, .int (-3)⟩ := rfl
  exact ⟨⟨spells_seven, hlimit, (hspelled 7 _ spells_seven (limitKey, 1) hlimit).1⟩,
    hthree, hskip, hsame.trans hbelow, hbelow⟩

end QueryPipeline.Query
