import QueryPipeline.Text.Integer
import Mathlib.Data.List.Basic

namespace QueryPipeline.Text

/-- At most one underscore is between two digits. -/
inductive Spaced : List Char → List Char → Prop
  | one (digit : Char) : Spaced [digit] [digit]
  | joined (digit : Char) (rest : Spaced digits chars) : Spaced (digit :: digits) (digit :: chars)
  | apart (digit : Char) (rest : Spaced digits chars) :
      Spaced (digit :: digits) (digit :: '_' :: chars)

inductive Signs : Int → List Char → Prop
  | minus (h : n < 0) : Signs n ['-']
  | plus (h : 0 ≤ n) : Signs n ['+']
  | unsigned (h : 0 ≤ n) : Signs n []

/-- The digits of the integer without its sign, after some more zeros. -/
def paddedDigits (zeros : Nat) (n : Int) : List Char :=
  List.replicate zeros '0' ++ Nat.toDigits 10 n.natAbs

/-- The text is the integer in decimal digits.  There may be blanks around it, a plus sign,
zeros in front and single underscores. -/
inductive Spells (n : Int) : String → Prop
  | intro (before after : List Char) (zeros : Nat)
      (blankBefore : ∀ c ∈ before, isBlank c = true) (blankAfter : ∀ c ∈ after, isBlank c = true)
      (sign : Signs n signChars) (spaced : Spaced (paddedDigits zeros n) chars)
      (length_le : (paddedDigits zeros n).length ≤ 4300) :
      Spells n (String.ofList (before ++ (signChars ++ chars) ++ after))

variable {digits chars signChars : List Char} {c : Char} {n : Int} {zeros : Nat}

theorem digitValue?_of_isDigit (h : c.isDigit = true) :
    digitValue? c = some (c.toNat - '0'.toNat) := by
  obtain ⟨hzero, hnine⟩ := Char.isDigit_iff_toNat.mp h
  have hscript : 0x30 ≤ c.toNat ∧ c.toNat < 0x30 + 10 := ⟨hzero, Nat.lt_succ_of_le hnine⟩
  rw [digitValue?, decimalZeros, List.findSome?_cons, if_pos hscript]
  rfl

theorem not_isBlank_of_isDigit (h : c.isDigit = true) : isBlank c = false := by
  obtain ⟨hzero, hnine⟩ := Char.isDigit_iff_toNat.mp h
  have hlow : 48 ≤ c.toNat := hzero
  have hhigh : c.toNat ≤ 57 := hnine
  simp only [isBlank, Bool.or_eq_false_iff, Bool.and_eq_false_iff, decide_eq_false_iff_not,
    beq_eq_false_iff_ne]
  omega

theorem Spaced.exists_first (h : Spaced digits chars) :
    ∃ first rest, chars = first :: rest ∧ first ∈ digits := by
  cases h with
  | one digit => exact ⟨digit, [], rfl, List.mem_cons_self⟩
  | joined digit => exact ⟨digit, _, rfl, List.mem_cons_self⟩
  | apart digit => exact ⟨digit, _, rfl, List.mem_cons_self⟩

theorem Spaced.mem (h : Spaced digits chars) (hc : c ∈ chars) : c ∈ digits ∨ c = '_' := by
  induction h with
  | one => exact .inl hc
  | joined digit _ ih =>
      rcases List.mem_cons.mp hc with rfl | hc
      · exact .inl List.mem_cons_self
      · exact (ih hc).imp_left (List.mem_cons_of_mem digit)
  | apart digit _ ih =>
      rcases List.mem_cons.mp hc with rfl | hc
      · exact .inl List.mem_cons_self
      · rcases List.mem_cons.mp hc with rfl | hc
        · exact .inr rfl
        · exact (ih hc).imp_left (List.mem_cons_of_mem digit)

theorem digits?_of_spaced (h : Spaced digits chars) (hdigits : ∀ c ∈ digits, c.isDigit = true) :
    digits? chars = some (digits.map fun c => c.toNat - '0'.toNat) := by
  induction h with
  | one digit =>
      rw [digits?, digitValue?_of_isDigit (hdigits digit List.mem_cons_self)]
      rfl
  | joined digit rest ih =>
      rw [List.forall_mem_cons] at hdigits
      obtain ⟨first, others, rfl, hfirst⟩ := rest.exists_first
      have hne : first ≠ '_' := by
        rintro rfl
        cases hdigits.2 '_' hfirst
      rw [digits?, digitValue?_of_isDigit hdigits.1, ih hdigits.2]
      · rfl
      · simp
      · simpa using hne
  | apart digit _ ih =>
      rw [List.forall_mem_cons] at hdigits
      rw [digits?, digitValue?_of_isDigit hdigits.1, ih hdigits.2]
      rfl

theorem ofDigits_map (chars : List Char) :
    ofDigits (chars.map fun c => c.toNat - '0'.toNat) = Nat.ofDigitChars 10 chars 0 := by
  rw [ofDigits, List.foldl_map, Nat.ofDigitChars_eq_foldl]

theorem isDigit_of_mem_paddedDigits (h : c ∈ paddedDigits zeros n) : c.isDigit = true := by
  rcases List.mem_append.mp h with hzero | hdigit
  · rw [List.eq_of_mem_replicate hzero]
    rfl
  · exact Nat.isDigit_of_mem_toDigits (by decide) (by decide) hdigit

theorem ofDigitChars_paddedDigits (zeros : Nat) (n : Int) :
    Nat.ofDigitChars 10 (paddedDigits zeros n) 0 = n.natAbs := by
  rw [paddedDigits, Nat.ofDigitChars_append, Nat.ofDigitChars_replicate_zero, Nat.mul_zero,
    Nat.ofDigitChars_ten_toDigits]

theorem natural?_of_spaced (h : Spaced (paddedDigits zeros n) chars)
    (hlength : (paddedDigits zeros n).length ≤ 4300) : natural? chars = some n.natAbs := by
  rw [natural?, digits?_of_spaced h fun _ => isDigit_of_mem_paddedDigits]
  simp only [bind, Option.bind]
  have hmax : (paddedDigits zeros n).length ≤ maxDigits := hlength
  rw [List.length_map, if_pos hmax, ofDigits_map, ofDigitChars_paddedDigits]

theorem signed?_of_signs (hsign : Signs n signChars) (hspaced : Spaced digits chars)
    (hdigits : ∀ c ∈ digits, c.isDigit = true) (h : natural? chars = some n.natAbs) :
    signed? (signChars ++ chars) = some n := by
  cases hsign with
  | minus hneg =>
      have hvalue : -(n.natAbs : Int) = n := by omega
      rw [List.singleton_append, signed?, h]
      exact congrArg some hvalue
  | plus hpos =>
      rw [List.singleton_append, signed?, h]
      exact congrArg some (Int.natAbs_of_nonneg hpos)
  | unsigned hpos =>
      obtain ⟨first, rest, rfl, hfirst⟩ := hspaced.exists_first
      have hdigit := hdigits first hfirst
      rw [List.nil_append, signed?]
      · rw [h]
        exact congrArg some (Int.natAbs_of_nonneg hpos)
      · rintro _ ⟨⟩
        cases hdigit
      · rintro _ ⟨⟩
        cases hdigit

theorem not_isBlank_of_mem (hsign : Signs n signChars) (hspaced : Spaced digits chars)
    (hdigits : ∀ c ∈ digits, c.isDigit = true) : ∀ c ∈ signChars ++ chars, isBlank c = false := by
  intro c hc
  rcases List.mem_append.mp hc with hc | hc
  · cases hsign with
    | minus =>
        rw [List.mem_singleton.mp hc]
        rfl
    | plus =>
        rw [List.mem_singleton.mp hc]
        rfl
    | unsigned => cases hc
  · rcases hspaced.mem hc with hc | rfl
    · exact not_isBlank_of_isDigit (hdigits c hc)
    · rfl

theorem integer?_of_spells {text : String} (h : Spells n text) : integer? text = some n := by
  obtain ⟨before, after, zeros, hbefore, hafter, hsign, hspaced, hlength⟩ := h
  have hdigits : ∀ c ∈ paddedDigits zeros n, c.isDigit = true :=
    fun _ => isDigit_of_mem_paddedDigits
  have hvisible := not_isBlank_of_mem hsign hspaced hdigits
  rw [integer?, String.toList_ofList, strip_append hbefore hafter, strip_of_forall hvisible]
  exact signed?_of_signs hsign hspaced hdigits (natural?_of_spaced hspaced hlength)

theorem spaced_self (h : digits ≠ []) : Spaced digits digits := by
  induction digits with
  | nil => exact absurd rfl h
  | cons first rest ih =>
      cases rest with
      | nil => exact .one first
      | cons second others => exact .joined first (ih (List.cons_ne_nil second others))

theorem spells_toString (h : (Nat.toDigits 10 n.natAbs).length ≤ 4300) :
    Spells n (toString n) := by
  have hspaced : Spaced (paddedDigits 0 n) (Nat.toDigits 10 n.natAbs) :=
    spaced_self Nat.toDigits_ne_nil
  have hspells : ∀ signChars, Signs n signChars →
      Spells n (String.ofList (signChars ++ Nat.toDigits 10 n.natAbs)) := by
    intro signChars hsign
    have hplain := Spells.intro [] [] 0 (List.forall_mem_nil _) (List.forall_mem_nil _) hsign
      hspaced h
    rwa [List.nil_append, List.append_nil] at hplain
  cases n with
  | ofNat m =>
      have htext : toString (Int.ofNat m) = String.ofList (Nat.toDigits 10 m) :=
        Nat.toString_eq_ofList_toDigits
      rw [htext]
      exact hspells [] (.unsigned (Int.natCast_nonneg m))
  | negSucc m =>
      have htext : toString (Int.negSucc m) =
          String.ofList ('-' :: Nat.toDigits 10 (m + 1)) := by
        show "-" ++ (m + 1).repr = _
        rw [Nat.repr_eq_ofList_toDigits, ← List.singleton_append, String.ofList_append]
      rw [htext]
      exact hspells ['-'] (.minus (Int.negSucc_lt_zero m))

end QueryPipeline.Text
