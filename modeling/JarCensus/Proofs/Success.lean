/-!
# When steps that may fail succeed

Steps in a row succeed exactly when each of them does, also where each one takes the state that
the one before it leaves. Changing the fault of a step does not change when it succeeds.
-/

namespace JarCensus

variable {α β ε φ : Type}

/-- Two steps succeed exactly when the first one does and the second one does on its result. -/
theorem bind_eq_ok_iff {step : Except ε α} {next : α → Except ε β} {result : β} :
    step >>= next = .ok result ↔ ∃ between, step = .ok between ∧ next between = .ok result := by
  cases step <;> simp [bind, Except.bind]

/-- A step with a changed fault succeeds exactly when the step does. -/
theorem mapError_eq_ok_iff {step : Except ε α} {change : ε → φ} {result : α} :
    step.mapError change = .ok result ↔ step = .ok result := by
  cases step with
  | error fault => exact iff_of_false nofun nofun
  | ok value =>
    have hmapped : (Except.ok value : Except ε α).mapError change = .ok value := rfl
    rw [hmapped, Except.ok.injEq, Except.ok.injEq]

/-- A step with a changed result succeeds exactly when the step does. -/
theorem map_eq_ok_iff {step : Except ε α} {change : α → β} {result : β} :
    change <$> step = .ok result ↔ ∃ before, step = .ok before ∧ change before = result := by
  cases step <;> simp [Functor.map, Except.map]

/-- A step with a changed fault fails exactly when the step does. -/
theorem mapError_eq_error_iff {step : Except ε α} {change : ε → φ} {fault : φ} :
    step.mapError change = .error fault ↔
      ∃ before, step = .error before ∧ change before = fault := by
  cases step with
  | ok value => exact iff_of_false nofun nofun
  | error before =>
    have hmapped : (Except.error before : Except ε α).mapError change = .error (change before) :=
      rfl
    simp [hmapped]

/-- What is left of a step without its fault is its result, if it has one. -/
theorem toOption_eq_some_iff {step : Except ε α} {result : α} :
    step.toOption = some result ↔ step = .ok result := by
  cases step <;> simp [Except.toOption]

/-- Steps on a list give results exactly when each of them gives the result at its position. -/
theorem mapM_eq_ok_iff {step : α → Except ε β} {items : List α} {results : List β} :
    items.mapM step = .ok results ↔ items.map step = results.map .ok := by
  induction items generalizing results with
  | nil => simp [pure, Except.pure, eq_comm]
  | cons item rest ih =>
    simp only [List.mapM_cons, bind_eq_ok_iff, pure, Except.pure, Except.ok.injEq, ih]
    constructor
    · rintro ⟨result, hitem, others, hrest, rfl⟩
      rw [List.map_cons, List.map_cons, hitem, hrest]
    · intro hmapped
      cases results with
      | nil => cases hmapped
      | cons result others =>
        rw [List.map_cons, List.map_cons] at hmapped
        obtain ⟨hitem, hrest⟩ := List.cons.inj hmapped
        exact ⟨result, hitem, others, hrest, rfl⟩

/-- Steps on a list succeed exactly when each of them does. -/
theorem mapM_isOk_iff {step : α → Except ε β} {items : List α} :
    (∃ results, items.mapM step = .ok results) ↔
      ∀ item ∈ items, ∃ result, step item = .ok result := by
  induction items with
  | nil => simp [pure, Except.pure]
  | cons item rest ih =>
    rw [List.forall_mem_cons, ← ih]
    simp only [List.mapM_cons, bind_eq_ok_iff, pure, Except.pure, Except.ok.injEq]
    constructor
    · rintro ⟨results, result, hitem, others, hrest, -⟩
      exact ⟨⟨result, hitem⟩, others, hrest⟩
    · rintro ⟨⟨result, hitem⟩, others, hrest⟩
      exact ⟨_, result, hitem, others, hrest, rfl⟩

/-- Steps on a list fail with the fault of the first one that fails. -/
theorem mapM_eq_error_iff {step : α → Except ε β} {items : List α} {fault : ε} :
    items.mapM step = .error fault ↔ ∃ before item after, items = before ++ item :: after ∧
      (∀ other ∈ before, ∃ result, step other = .ok result) ∧ step item = .error fault := by
  induction items with
  | nil => simp [pure, Except.pure]
  | cons item rest ih =>
    rw [List.mapM_cons]
    cases hitem : step item with
    | error found =>
      simp only [bind, Except.bind, Except.error.injEq]
      constructor
      · rintro rfl
        exact ⟨[], item, rest, rfl, by simp, hitem⟩
      · rintro ⟨before, other, after, hsplit, hbefore, hother⟩
        cases before with
        | nil =>
          cases hsplit
          exact Except.error.inj (hitem.symm.trans hother)
        | cons first before =>
          cases hsplit
          obtain ⟨result, hresult⟩ := hbefore item List.mem_cons_self
          cases hitem.symm.trans hresult
    | ok result =>
      have hrest : (do let others ← rest.mapM step; pure (result :: others) : Except ε (List β)) =
          .error fault ↔ rest.mapM step = .error fault := by
        cases rest.mapM step <;> simp [bind, Except.bind, pure, Except.pure]
      simp only [bind, Except.bind] at hrest ⊢
      rw [hrest, ih]
      constructor
      · rintro ⟨before, other, after, rfl, hbefore, hother⟩
        exact ⟨item :: before, other, after, rfl,
          List.forall_mem_cons.mpr ⟨⟨result, hitem⟩, hbefore⟩, hother⟩
      · rintro ⟨before, other, after, hsplit, hbefore, hother⟩
        cases before with
        | nil =>
          cases hsplit
          cases hitem.symm.trans hother
        | cons first before =>
          cases hsplit
          exact ⟨before, other, after, rfl, (List.forall_mem_cons.mp hbefore).2, hother⟩

section States

variable {σ : Type} {step : StateT σ (Except ε) α} {next : α → StateT σ (Except ε) β}
  {state after : σ} {value : α} {fault : ε}

/-- A second step takes what the first one leaves. -/
theorem bind_of_ok (hstep : step state = .ok (value, after)) :
    (step >>= next) state = next value after := by
  simp [bind, StateT.bind, Except.bind, hstep]

/-- No second step is taken after a fault. -/
theorem bind_of_error (hstep : step state = .error fault) :
    (step >>= next) state = .error fault := by
  simp [bind, StateT.bind, Except.bind, hstep]

/-- Two steps succeed exactly when the first one does and the second one does on what it leaves. -/
theorem bind_apply_eq_ok_iff {result : β × σ} : (step >>= next) state = .ok result ↔
    ∃ value after, step state = .ok (value, after) ∧ next value after = .ok result := by
  cases hstep : step state with
  | error fault => simp [bind_of_error hstep]
  | ok found =>
    obtain ⟨value, after⟩ := found
    simp [bind_of_ok hstep, and_assoc]

/-- Two steps fail exactly when the first one does or the second one does on what it leaves. -/
theorem bind_apply_eq_error_iff : (step >>= next) state = .error fault ↔
    step state = .error fault ∨
      ∃ value after, step state = .ok (value, after) ∧ next value after = .error fault := by
  cases hstep : step state with
  | error found => simp [bind_of_error hstep]
  | ok found =>
    obtain ⟨value, after⟩ := found
    simp [bind_of_ok hstep, and_assoc]

end States

end JarCensus
