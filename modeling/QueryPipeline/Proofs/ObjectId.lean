import Mathlib.Data.List.Basic
import QueryPipeline.ObjectId

namespace QueryPipeline

namespace ObjectId

def byteOf (high low : Fin 16) : UInt8 :=
  UInt8.ofNat (16 * high.val + low.val)

def bytesOf : List (Fin 16) → List UInt8
  | high :: low :: rest => byteOf high low :: bytesOf rest
  | _ => []

def bytes (id : ObjectId) : List UInt8 :=
  bytesOf id.digits

/-- Two digits in either case for each byte, that of its higher half first. -/
inductive Hex : List Char → List UInt8 → Prop
  | nil : Hex [] []
  | cons (high : first.toLower = Nat.digitChar (byte.toNat / 16))
      (low : second.toLower = Nat.digitChar (byte.toNat % 16)) (rest : Hex chars others) :
      Hex (first :: second :: chars) (byte :: others)

def IsHexDigit (c : Char) : Prop :=
  c ∈ "0123456789abcdefABCDEF".toList

/-- The text is the given one in quotes, which need not match, with blanks around it. -/
inductive Quoted (chars : List Char) : String → Prop
  | intro (before opening closing after : List Char)
      (blankBefore : ∀ c ∈ before, Text.isBlank c = true)
      (quotesBefore : ∀ c ∈ opening, c = '"' ∨ c = '\'')
      (quotesAfter : ∀ c ∈ closing, c = '"' ∨ c = '\'')
      (blankAfter : ∀ c ∈ after, Text.isBlank c = true) :
      Quoted chars (String.ofList (before ++ (opening ++ chars ++ closing) ++ after))

variable {c : Char} {digit : Fin 16} {chars : List Char} {digits : List (Fin 16)} {text : String}
  {id : ObjectId}

theorem toLower_eq_digitChar_iff :
    c.toLower = Nat.digitChar digit.val ↔
      c = Nat.digitChar digit.val ∨ c = (Nat.digitChar digit.val).toUpper := by
  constructor
  -- The ASCII characters are tried one by one.  Any other one is its own lower case.
  · have hascii : ∀ n < 128, ∀ digit : Fin 16,
        (Char.ofNat n).toLower = Nat.digitChar digit.val →
          Char.ofNat n = Nat.digitChar digit.val ∨
            Char.ofNat n = (Nat.digitChar digit.val).toUpper := by decide +kernel
    intro h
    by_cases hlow : c.toNat < 128
    · rw [← Char.ofNat_toNat c] at h ⊢
      exact hascii c.toNat hlow digit h
    · left
      have hnotUpper : ¬(c.val ≥ 'A'.val ∧ c.val ≤ 'Z'.val) := by
        rintro ⟨_, hle⟩
        have hle : c.toNat ≤ 90 := UInt32.le_iff_toNat_le.mp hle
        omega
      have hsame : c.toLower = c := dif_neg hnotUpper
      rwa [hsame] at h
  · have hall : ∀ digit : Fin 16,
        (Nat.digitChar digit.val).toLower = Nat.digitChar digit.val ∧
          (Nat.digitChar digit.val).toUpper.toLower = Nat.digitChar digit.val := by decide
    rintro (rfl | rfl)
    · exact (hall digit).1
    · exact (hall digit).2

theorem isHexDigit_iff : IsHexDigit c ↔ ∃ digit : Fin 16, c.toLower = Nat.digitChar digit.val := by
  simp only [toLower_eq_digitChar_iff]
  constructor
  · have hall : "0123456789abcdefABCDEF".toList.Forall fun c => ∃ digit : Fin 16,
        c = Nat.digitChar digit.val ∨ c = (Nat.digitChar digit.val).toUpper := by decide
    exact List.forall_iff_forall_mem.mp hall c
  · have hall : ∀ digit : Fin 16,
        Nat.digitChar digit.val ∈ "0123456789abcdefABCDEF".toList ∧
          (Nat.digitChar digit.val).toUpper ∈ "0123456789abcdefABCDEF".toList := by decide
    rintro ⟨digit, rfl | rfl⟩
    · exact (hall digit).1
    · exact (hall digit).2

theorem hexValue?_eq_some_iff :
    hexValue? c = some digit ↔ c.toLower = Nat.digitChar digit.val := by
  constructor
  · have hall : ∀ n < 128, ∀ digit : Fin 16, hexValue? (Char.ofNat n) = some digit →
        (Char.ofNat n).toLower = Nat.digitChar digit.val := by decide +kernel
    intro h
    have hascii : c.toNat < 128 := by
      rw [hexValue?] at h
      grind
    rw [← Char.ofNat_toNat c] at h ⊢
    exact hall c.toNat hascii digit h
  · rw [toLower_eq_digitChar_iff]
    have hall : ∀ digit : Fin 16, hexValue? (Nat.digitChar digit.val) = some digit ∧
        hexValue? (Nat.digitChar digit.val).toUpper = some digit := by decide
    rintro (rfl | rfl)
    · exact (hall digit).1
    · exact (hall digit).2

theorem mapM_hexValue?_eq_some_iff :
    chars.mapM hexValue? = some digits ↔
      chars.map Char.toLower = digits.map fun digit => Nat.digitChar digit.val := by
  induction chars generalizing digits with
  | nil => cases digits <;> simp
  | cons first rest ih =>
      rw [List.mapM_cons]
      cases digits with
      | nil => simp [Option.bind_eq_some_iff]
      | cons digit others =>
          simp only [bind, Option.bind_eq_some_iff, pure, Option.some.injEq, List.cons.injEq,
            List.map_cons, hexValue?_eq_some_iff]
          constructor
          · rintro ⟨_, hfirst, _, hrest, rfl, rfl⟩
            exact ⟨hfirst, ih.mp hrest⟩
          · rintro ⟨hfirst, hrest⟩
            exact ⟨digit, hfirst, others, ih.mpr hrest, rfl, rfl⟩

theorem toList_toHex (id : ObjectId) :
    id.toHex.toList = id.digits.map fun digit => Nat.digitChar digit.val := by
  have hdigit : ∀ digit : Fin 16, Text.hexDigit digit.val = Nat.digitChar digit.val := by decide
  rw [toHex, String.toList_ofList]
  exact List.map_congr_left fun digit _ => hdigit digit

theorem ofHex?_eq_some_iff :
    ofHex? chars = some id ↔ chars.map Char.toLower = id.toHex.toList := by
  rw [toList_toHex, ← mapM_hexValue?_eq_some_iff, ofHex?]
  cases chars.mapM hexValue? with
  | none => simp
  | some digits =>
      obtain ⟨found, hfound⟩ := id
      simp only [Option.some.injEq]
      constructor
      · intro h
        split at h
        · cases h
          rfl
        · cases h
      · rintro rfl
        rw [dif_pos hfound]

theorem toNat_byteOf (high low : Fin 16) : (byteOf high low).toNat = 16 * high.val + low.val := by
  rw [byteOf, UInt8.toNat_ofNat']
  omega

theorem toNat_div_lt (byte : UInt8) : byte.toNat / 16 < 16 :=
  Nat.div_lt_of_lt_mul byte.toNat_lt

def halves (byte : UInt8) : List (Fin 16) :=
  [⟨byte.toNat / 16, toNat_div_lt byte⟩, ⟨byte.toNat % 16, Nat.mod_lt _ (Nat.succ_pos 15)⟩]

theorem flatMap_halves_cons (byte : UInt8) (others : List UInt8) :
    (byte :: others).flatMap halves =
      ⟨byte.toNat / 16, toNat_div_lt byte⟩ :: ⟨byte.toNat % 16, Nat.mod_lt _ (Nat.succ_pos 15)⟩ ::
        others.flatMap halves := rfl

theorem halves_byteOf (high low : Fin 16) : halves (byteOf high low) = [high, low] := by
  simp only [halves, toNat_byteOf, List.cons.injEq, Fin.ext_iff, and_true]
  omega

theorem byteOf_halves (byte : UInt8) (hlow : byte.toNat % 16 < 16) :
    byteOf ⟨byte.toNat / 16, toNat_div_lt byte⟩ ⟨byte.toNat % 16, hlow⟩ = byte := by
  apply UInt8.toNat_inj.mp
  rw [toNat_byteOf]
  exact Nat.div_add_mod byte.toNat 16

theorem flatMap_halves_bytesOf (digits : List (Fin 16)) (h : digits.length % 2 = 0) :
    (bytesOf digits).flatMap halves = digits := by
  match digits with
  | [] => rfl
  | [_] => cases h
  | high :: low :: rest =>
      have hrest : rest.length % 2 = 0 := by
        rw [List.length_cons, List.length_cons] at h
        omega
      rw [bytesOf, List.flatMap_cons, halves_byteOf, flatMap_halves_bytesOf rest hrest]
      rfl

theorem flatMap_halves_bytes (id : ObjectId) : id.bytes.flatMap halves = id.digits :=
  flatMap_halves_bytesOf id.digits (by rw [id.length_digits])

theorem bytesOf_flatMap_halves (others : List UInt8) : bytesOf (others.flatMap halves) = others := by
  induction others with
  | nil => rfl
  | cons byte rest ih =>
      rw [flatMap_halves_cons, bytesOf, byteOf_halves, ih]

theorem hex_iff {others : List UInt8} :
    Hex chars others ↔
      chars.map Char.toLower =
        (others.flatMap halves).map fun digit => Nat.digitChar digit.val := by
  induction others generalizing chars with
  | nil =>
      constructor
      · rintro ⟨⟩
        rfl
      · intro h
        rw [List.map_eq_nil_iff.mp h]
        exact .nil
  | cons byte rest ih =>
      rw [flatMap_halves_cons, List.map_cons, List.map_cons]
      constructor
      · rintro (_ | ⟨hfirst, hsecond, hrest⟩)
        rw [List.map_cons, List.map_cons, hfirst, hsecond, ih.mp hrest]
      · intro h
        obtain ⟨first, tail, rfl, hfirst, htail⟩ := List.map_eq_cons_iff.mp h
        obtain ⟨second, others, rfl, hsecond, hrest⟩ := List.map_eq_cons_iff.mp htail
        exact .cons hfirst hsecond (ih.mpr hrest)

theorem hex_bytes_iff : Hex chars id.bytes ↔ chars.map Char.toLower = id.toHex.toList := by
  rw [hex_iff, flatMap_halves_bytes, toList_toHex]

theorem length_flatMap_halves (others : List UInt8) :
    (others.flatMap halves).length = 2 * others.length := by
  induction others with
  | nil => rfl
  | cons byte rest ih =>
      rw [flatMap_halves_cons, List.length_cons, List.length_cons, ih, List.length_cons]
      omega

theorem bytes_inj {left right : ObjectId} (h : left.bytes = right.bytes) : left = right := by
  have hdigits : left.digits = right.digits := by
    rw [← flatMap_halves_bytes, h, flatMap_halves_bytes]
  cases left
  cases right
  cases hdigits
  rfl

theorem existsUnique_bytes {others : List UInt8} (h : others.length = 12) :
    ∃! id : ObjectId, id.bytes = others := by
  have hlength : (others.flatMap halves).length = 24 := by
    rw [length_flatMap_halves, h]
  have hbytes : (⟨others.flatMap halves, hlength⟩ : ObjectId).bytes = others :=
    bytesOf_flatMap_halves others
  exact ⟨_, hbytes, fun id hid => bytes_inj (hid.trans hbytes.symm)⟩

theorem exists_digits (h : ∀ c ∈ chars, IsHexDigit c) :
    ∃ digits : List (Fin 16),
      chars.map Char.toLower = digits.map fun digit => Nat.digitChar digit.val := by
  induction chars with
  | nil => exact ⟨[], rfl⟩
  | cons first rest ih =>
      rw [List.forall_mem_cons] at h
      obtain ⟨digit, hdigit⟩ := isHexDigit_iff.mp h.1
      obtain ⟨others, hothers⟩ := ih h.2
      exact ⟨digit :: others, by rw [List.map_cons, List.map_cons, hdigit, hothers]⟩

theorem exists_hex_iff :
    (∃ id : ObjectId, Hex chars id.bytes) ↔ chars.length = 24 ∧ ∀ c ∈ chars, IsHexDigit c := by
  simp only [hex_bytes_iff, toList_toHex]
  constructor
  · rintro ⟨id, h⟩
    have hlength := congrArg List.length h
    rw [List.length_map, List.length_map, id.length_digits] at hlength
    refine ⟨hlength, fun c hc => ?_⟩
    have hlower := List.mem_map_of_mem (f := Char.toLower) hc
    rw [h] at hlower
    obtain ⟨digit, _, hdigit⟩ := List.mem_map.mp hlower
    exact isHexDigit_iff.mpr ⟨digit, hdigit.symm⟩
  · rintro ⟨hlength, hchars⟩
    obtain ⟨digits, hdigits⟩ := exists_digits hchars
    have hcount := congrArg List.length hdigits
    rw [List.length_map, List.length_map, hlength] at hcount
    exact ⟨⟨digits, hcount.symm⟩, hdigits⟩

theorem quoted_bare (text : String) : Quoted (bare text) text := by
  obtain ⟨before, after, htext, hbefore, hafter⟩ :=
    Text.exists_strip_append Text.isBlank text.toList
  obtain ⟨opening, closing, hquotes, hopening, hclosing⟩ :=
    Text.exists_strip_append isQuote (Text.strip Text.isBlank text.toList)
  have hwhole : String.ofList (before ++ (opening ++ bare text ++ closing) ++ after) = text := by
    rw [bare, ← hquotes, ← htext, String.ofList_toList]
  have hquoted : Quoted (bare text)
      (String.ofList (before ++ (opening ++ bare text ++ closing) ++ after)) := by
    refine .intro before opening closing after hbefore (fun c hc => ?_) (fun c hc => ?_) hafter
    · simpa [isQuote] using hopening c hc
    · simpa [isQuote] using hclosing c hc
  rwa [hwhole] at hquoted

theorem not_blank_not_quote : ∀ c, IsHexDigit c → Text.isBlank c = false ∧ isQuote c = false := by
  have hall : "0123456789abcdefABCDEF".toList.Forall fun c =>
      Text.isBlank c = false ∧ isQuote c = false := by decide
  exact List.forall_iff_forall_mem.mp hall

theorem bare_of_quoted (h : Quoted chars text) (hchars : ∀ c ∈ chars, IsHexDigit c) :
    bare text = chars := by
  obtain ⟨before, opening, closing, after, hbefore, hopening, hclosing, hafter⟩ := h
  have hquote : ∀ c, c = '"' ∨ c = '\'' → isQuote c = true ∧ Text.isBlank c = false := by
    rintro c (rfl | rfl) <;> decide
  have hvisible : ∀ c ∈ opening ++ chars ++ closing, Text.isBlank c = false := by
    intro c hc
    rcases List.mem_append.mp hc with hc | hc
    · rcases List.mem_append.mp hc with hc | hc
      · exact (hquote c (hopening c hc)).2
      · exact (not_blank_not_quote c (hchars c hc)).1
    · exact (hquote c (hclosing c hc)).2
  rw [bare, String.toList_ofList, Text.strip_append hbefore hafter, Text.strip_of_forall hvisible,
    Text.strip_append (fun c hc => (hquote c (hopening c hc)).1)
      fun c hc => (hquote c (hclosing c hc)).1]
  exact Text.strip_of_forall fun c hc => (not_blank_not_quote c (hchars c hc)).2

theorem ofText_eq_ok_iff :
    ofText text = .ok id ↔ ∃ chars, Quoted chars text ∧ Hex chars id.bytes := by
  have hbare : ofText text = .ok id ↔ text ≠ "" ∧ ofHex? (bare text) = some id := by
    rw [ofText]
    by_cases hempty : text = ""
    · simp [hempty]
    · rw [if_neg hempty]
      cases ofHex? (bare text) <;> simp [hempty]
  rw [hbare]
  constructor
  · rintro ⟨_, hid⟩
    exact ⟨bare text, quoted_bare text, hex_bytes_iff.mpr (ofHex?_eq_some_iff.mp hid)⟩
  · rintro ⟨chars, hquoted, hhex⟩
    obtain ⟨hlength, hchars⟩ := exists_hex_iff.mp ⟨id, hhex⟩
    have hsame := bare_of_quoted hquoted hchars
    rw [hsame, ofHex?_eq_some_iff]
    refine ⟨?_, hex_bytes_iff.mp hhex⟩
    rintro rfl
    rw [← hsame] at hlength
    cases hlength

end ObjectId

end QueryPipeline
