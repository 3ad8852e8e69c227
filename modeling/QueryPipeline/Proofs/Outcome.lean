namespace QueryPipeline

def unlessFailed (failure : Option ε) (value : α) : Except ε α :=
  match failure with
  | some failure => .error failure
  | none => .ok value

@[simp] theorem unlessFailed_none (value : α) :
    unlessFailed (none : Option ε) value = .ok value := rfl

@[simp] theorem unlessFailed_some (failure : ε) (value : α) :
    unlessFailed (some failure) value = .error failure := rfl

theorem unlessFailed_eq_ok_iff {failure : Option ε} {value result : α} :
    unlessFailed failure value = .ok result ↔ failure = none ∧ value = result := by
  cases failure <;> simp

theorem unlessFailed_eq_error_iff {failure : Option ε} {value : α} {error : ε} :
    unlessFailed failure value = .error error ↔ failure = some error := by
  cases failure <;> simp

theorem map_unlessFailed (f : α → β) (failure : Option ε) (value : α) :
    (unlessFailed failure value).map f = unlessFailed failure (f value) := by
  cases failure <;> rfl

theorem bind_pure_unlessFailed (f : α → β) (failure : Option ε) (value : α) :
    (do let value ← unlessFailed failure value
        return f value) = unlessFailed failure (f value) := by
  cases failure <;> rfl

/-- A run whose steps each give a value unless they fail gives all the values, unless
one of the steps fails; the first to fail is the one reported. -/
theorem mapM_eq_unlessFailed {step : α → Except ε β} {failure : α → Option ε}
    {value : α → β} {items : List α}
    (h : ∀ item ∈ items, step item = unlessFailed (failure item) (value item)) :
    items.mapM step = unlessFailed (items.findSome? failure) (items.map value) := by
  induction items with
  | nil => rfl
  | cons first rest ih =>
      have hrest := ih fun item hitem => h item (List.mem_cons_of_mem first hitem)
      rw [List.mapM_cons, h first List.mem_cons_self, hrest, List.findSome?_cons]
      cases failure first with
      | some _ => rfl
      | none => cases rest.findSome? failure <;> rfl

theorem forM_eq_unlessFailed {step : α → Except ε PUnit} {failure : α → Option ε}
    {items : List α} (h : ∀ item ∈ items, step item = unlessFailed (failure item) ()) :
    items.forM step = unlessFailed (items.findSome? failure) () := by
  induction items with
  | nil => rfl
  | cons first rest ih =>
      have hcons : (first :: rest).forM step = (do step first; rest.forM step) := rfl
      have hrest := ih fun item hitem => h item (List.mem_cons_of_mem first hitem)
      rw [hcons, h first List.mem_cons_self, hrest, List.findSome?_cons]
      cases failure first <;> rfl

theorem bind_eq_ok_iff {first : Except ε α} {next : α → Except ε β} {result : β} :
    (first >>= next) = .ok result ↔
      ∃ value, first = .ok value ∧ next value = .ok result := by
  cases first with
  | error _ => exact ⟨nofun, fun ⟨_, hfirst, _⟩ => nomatch hfirst⟩
  | ok value => exact ⟨fun h => ⟨value, rfl, h⟩, fun ⟨_, hfirst, h⟩ => by cases hfirst; exact h⟩

theorem bind_pair_eq_ok_iff {α β : Type u} {first : Except ε α} {next : α → Except ε β}
    {whole : Except ε β} (h : ∀ value, first = .ok value → next value = whole) {found : α × β} :
    (do let value ← first
        return (value, ← next value)) = .ok found ↔
      first = .ok found.1 ∧ whole = .ok found.2 := by
  cases first with
  | error _ => exact ⟨nofun, fun ⟨hfirst, _⟩ => nomatch hfirst⟩
  | ok value =>
      rw [← h value rfl]
      cases hnext : next value with
      | error _ => simp [bind, Except.bind, hnext]
      | ok result => simp [bind, Except.bind, pure, Except.pure, hnext, Prod.ext_iff]

theorem mapM_eq_error_iff {step : α → Except ε β} {items : List α} {failure : ε} :
    items.mapM step = .error failure ↔
      ∃ before item after, items = before ++ item :: after ∧
        (∀ other ∈ before, ∃ value, step other = .ok value) ∧ step item = .error failure := by
  induction items with
  | nil => exact ⟨nofun, fun ⟨before, _, _, h, _⟩ => by cases before <;> cases h⟩
  | cons first rest ih =>
      rw [List.mapM_cons]
      cases hfirst : step first with
      | error other =>
          constructor
          · rintro ⟨⟩
            exact ⟨[], first, rest, rfl, nofun, hfirst⟩
          · rintro ⟨before, item, after, hitems, hbefore, hitem⟩
            cases before with
            | nil =>
                cases hitems
                rw [hfirst] at hitem
                cases hitem
                rfl
            | cons head others =>
                cases hitems
                obtain ⟨value, hvalue⟩ := hbefore first List.mem_cons_self
                rw [hfirst] at hvalue
                cases hvalue
      | ok value =>
          have hrest : (do let values ← rest.mapM step
                           pure (value :: values)) = .error failure ↔
              rest.mapM step = .error failure := by
            cases rest.mapM step <;> simp [bind, Except.bind, pure, Except.pure]
          refine hrest.trans (ih.trans ?_)
          constructor
          · rintro ⟨before, item, after, rfl, hbefore, hitem⟩
            refine ⟨first :: before, item, after, rfl, ?_, hitem⟩
            exact List.forall_mem_cons.mpr ⟨⟨value, hfirst⟩, hbefore⟩
          · rintro ⟨before, item, after, hitems, hbefore, hitem⟩
            cases before with
            | nil =>
                cases hitems
                rw [hfirst] at hitem
                cases hitem
            | cons head others =>
                cases hitems
                exact ⟨others, item, after, rfl, (List.forall_mem_cons.mp hbefore).2, hitem⟩

theorem exists_of_mapM_eq_ok {step : α → Except ε β} {items : List α} {results : List β}
    (h : items.mapM step = .ok results) :
    ∀ result ∈ results, ∃ item ∈ items, step item = .ok result := by
  induction items generalizing results with
  | nil =>
      cases h
      exact nofun
  | cons first rest ih =>
      rw [List.mapM_cons, bind_eq_ok_iff] at h
      obtain ⟨value, hfirst, h⟩ := h
      obtain ⟨values, hrest, hresults⟩ := bind_eq_ok_iff.mp h
      cases hresults
      refine List.forall_mem_cons.mpr ⟨⟨first, List.mem_cons_self, hfirst⟩, ?_⟩
      intro result hresult
      obtain ⟨item, hitem, hstep⟩ := ih hrest result hresult
      exact ⟨item, List.mem_cons_of_mem first hitem, hstep⟩

theorem bind_eq_error_iff {first : Except ε α} {next : α → Except ε β} {failure : ε} :
    (first >>= next) = .error failure ↔
      first = .error failure ∨ ∃ value, first = .ok value ∧ next value = .error failure := by
  cases first with
  | error other => simp [bind, Except.bind]
  | ok value => simp [bind, Except.bind]

theorem map_eq_ok_iff {outcome : Except ε α} {convert : α → β} {result : β} :
    outcome.map convert = .ok result ↔ ∃ value, outcome = .ok value ∧ convert value = result := by
  cases outcome <;> simp [Except.map]

theorem map_eq_error_iff {outcome : Except ε α} {convert : α → β} {failure : ε} :
    outcome.map convert = .error failure ↔ outcome = .error failure := by
  cases outcome <;> simp [Except.map]

@[simp] theorem mapError_ok (convert : ε → ε') (value : α) :
    (Except.ok value).mapError convert = .ok value := rfl

@[simp] theorem mapError_error (convert : ε → ε') (failure : ε) :
    (Except.error failure : Except ε α).mapError convert = .error (convert failure) := rfl

theorem mapError_eq_ok_iff {outcome : Except ε α} {convert : ε → ε'} {result : α} :
    outcome.mapError convert = .ok result ↔ outcome = .ok result := by
  cases outcome <;> simp

theorem mapError_eq_error_iff {outcome : Except ε α} {convert : ε → ε'} {error : ε'} :
    outcome.mapError convert = .error error ↔
      ∃ cause, outcome = .error cause ∧ convert cause = error := by
  cases outcome <;> simp

end QueryPipeline
