namespace QueryPipeline.Text

def strip (unwanted : α → Bool) (items : List α) : List α :=
  ((items.dropWhile unwanted).reverse.dropWhile unwanted).reverse

/-- Unicode white space, together with the four information separators. -/
def isBlank (c : Char) : Bool :=
  let n := c.toNat
  (0x09 ≤ n && n ≤ 0x0D) || (0x1C ≤ n && n ≤ 0x20) || n == 0x85 || n == 0xA0 ||
    n == 0x1680 || (0x2000 ≤ n && n ≤ 0x200A) || n == 0x2028 || n == 0x2029 ||
    n == 0x202F || n == 0x205F || n == 0x3000

def trim (text : String) : String :=
  String.ofList (strip isBlank text.toList)

theorem dropWhile_eq_nil {unwanted : α → Bool} {items : List α} :
    items.dropWhile unwanted = [] ↔ ∀ item ∈ items, unwanted item = true := by
  induction items with
  | nil => simp
  | cons first rest ih =>
      cases hfirst : unwanted first with
      | true => simp [hfirst, ih]
      | false => simp [hfirst]

theorem strip_eq_nil {unwanted : α → Bool} {items : List α} :
    strip unwanted items = [] ↔ ∀ item ∈ items, unwanted item = true := by
  rw [strip, List.reverse_eq_nil_iff, dropWhile_eq_nil]
  constructor
  · intro h
    cases hdrop : items.dropWhile unwanted with
    | nil => exact dropWhile_eq_nil.mp hdrop
    | cons first rest =>
        have hnot : unwanted first = false := by
          have := List.head?_dropWhile_not unwanted items
          simpa [hdrop] using this
        have hall := h first (by simp [hdrop])
        rw [hnot] at hall
        contradiction
  · intro h item hitem
    rw [dropWhile_eq_nil.mpr h] at hitem
    contradiction

theorem dropWhile_eq_self {unwanted : α → Bool} {items : List α}
    (h : ∀ first ∈ items.head?, unwanted first = false) :
    items.dropWhile unwanted = items := by
  cases items with
  | nil => rfl
  | cons first rest => simp [h first rfl]

theorem strip_eq_self {unwanted : α → Bool} {items : List α}
    (hhead : ∀ first ∈ items.head?, unwanted first = false)
    (hlast : ∀ last ∈ items.getLast?, unwanted last = false) :
    strip unwanted items = items := by
  rw [strip, dropWhile_eq_self hhead, dropWhile_eq_self, List.reverse_reverse]
  simpa using hlast

theorem strip_of_forall {unwanted : α → Bool} {items : List α}
    (h : ∀ item ∈ items, unwanted item = false) : strip unwanted items = items :=
  strip_eq_self (fun first hfirst => h first (List.mem_of_mem_head? hfirst))
    (fun last hlast => h last (List.mem_of_mem_getLast? hlast))

theorem dropWhile_append {unwanted : α → Bool} {left items : List α}
    (h : ∀ item ∈ left, unwanted item = true) :
    (left ++ items).dropWhile unwanted = items.dropWhile unwanted := by
  induction left with
  | nil => rfl
  | cons first rest ih =>
      rw [List.cons_append, List.dropWhile_cons, if_pos (h first (by simp))]
      exact ih fun item hitem => h item (by simp [hitem])

theorem strip_append {unwanted : α → Bool} {left items right : List α}
    (hleft : ∀ item ∈ left, unwanted item = true)
    (hright : ∀ item ∈ right, unwanted item = true) :
    strip unwanted (left ++ items ++ right) = strip unwanted items := by
  have hstrip : strip unwanted (items ++ right) = strip unwanted items := by
    cases hdrop : items.dropWhile unwanted with
    | nil =>
        have hitems := dropWhile_eq_nil.mp hdrop
        rw [strip_eq_nil.mpr hitems, strip_eq_nil]
        intro item hitem
        rcases List.mem_append.mp hitem with hitem | hitem
        · exact hitems item hitem
        · exact hright item hitem
    | cons first rest =>
        have happend : (items ++ right).dropWhile unwanted =
            items.dropWhile unwanted ++ right := by
          rw [List.dropWhile_append, hdrop]
          rfl
        rw [strip, strip, happend, List.reverse_append, dropWhile_append]
        simpa using hright
  rw [List.append_assoc, strip, dropWhile_append hleft]
  exact hstrip

theorem exists_strip_append (unwanted : α → Bool) (items : List α) :
    ∃ left right, items = left ++ strip unwanted items ++ right ∧
      (∀ item ∈ left, unwanted item = true) ∧
      ∀ item ∈ right, unwanted item = true := by
  let kept := (items.dropWhile unwanted).reverse
  refine ⟨items.takeWhile unwanted, (kept.takeWhile unwanted).reverse, ?_, ?_, ?_⟩
  · have hkept : strip unwanted items ++ (kept.takeWhile unwanted).reverse =
        items.dropWhile unwanted := by
      rw [strip, ← List.reverse_append, List.takeWhile_append_dropWhile,
        List.reverse_reverse]
    rw [List.append_assoc, hkept, List.takeWhile_append_dropWhile]
  · exact List.all_eq_true.mp List.all_takeWhile
  · exact fun item hitem =>
      List.all_eq_true.mp List.all_takeWhile item (List.mem_reverse.mp hitem)

theorem head?_strip {unwanted : α → Bool} {items : List α} {first : α}
    (h : (strip unwanted items).head? = some first) : unwanted first = false := by
  obtain ⟨left, right, hitems, hleft, _⟩ := exists_strip_append unwanted items
  have hdrop : items.dropWhile unwanted = strip unwanted items ++
      (((items.dropWhile unwanted).reverse).takeWhile unwanted).reverse := by
    rw [strip, ← List.reverse_append, List.takeWhile_append_dropWhile,
      List.reverse_reverse]
  have hnot := List.head?_dropWhile_not unwanted items
  rw [hdrop, List.head?_append, h] at hnot
  simpa using hnot

theorem getLast?_strip {unwanted : α → Bool} {items : List α} {last : α}
    (h : (strip unwanted items).getLast? = some last) : unwanted last = false := by
  have hnot := List.head?_dropWhile_not unwanted (items.dropWhile unwanted).reverse
  rw [strip, List.getLast?_reverse] at h
  rw [h] at hnot
  simpa using hnot

@[simp] theorem strip_strip (unwanted : α → Bool) (items : List α) :
    strip unwanted (strip unwanted items) = strip unwanted items :=
  strip_eq_self (fun _ h => head?_strip h) (fun _ h => getLast?_strip h)

@[simp] theorem toList_trim (text : String) :
    (trim text).toList = strip isBlank text.toList :=
  String.toList_ofList

@[simp] theorem trim_trim (text : String) : trim (trim text) = trim text := by
  simp [trim]

theorem trim_eq_empty {text : String} :
    trim text = "" ↔ ∀ c ∈ text.toList, isBlank c = true := by
  rw [← strip_eq_nil, ← toList_trim, String.toList_eq_nil_iff]

end QueryPipeline.Text
