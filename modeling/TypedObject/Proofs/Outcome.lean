/-!
# Results that may be errors

A computation in several steps succeeds exactly when every step does, which lets
a proof take the steps apart without unfolding how they are joined.
-/

namespace TypedObject.Outcome

variable {ε α β γ : Type}

theorem bind_eq_ok_iff
    {result : Except ε α} {next : α → Except ε β} {value : β} :
    (result >>= next) = .ok value ↔ ∃ first, result = .ok first ∧ next first = .ok value := by
  cases result with
  | error error =>
      constructor
      · intro failed
        cases failed
      · intro found
        obtain ⟨first, failed, _⟩ := found
        cases failed
  | ok first =>
      constructor
      · intro continued
        exact ⟨first, rfl, continued⟩
      · intro found
        obtain ⟨first', same, continued⟩ := found
        cases same
        exact continued

theorem bind_eq_error_iff
    {result : Except ε α} {next : α → Except ε β} {error : ε} :
    (result >>= next) = .error error ↔
      result = .error error ∨ ∃ first, result = .ok first ∧ next first = .error error := by
  cases result with
  | error found => simp [bind, Except.bind]
  | ok first => simp [bind, Except.bind]

theorem pure_eq_ok_iff
    {value value' : α} : (pure value : Except ε α) = .ok value' ↔ value = value' := by
  constructor
  · intro same
    cases same
    rfl
  · intro same
    rw [same]
    rfl

theorem map_eq_ok_iff
    {result : Except ε α} {function : α → β} {value : β} :
    result.map function = .ok value ↔ ∃ first, result = .ok first ∧ function first = value := by
  cases result <;> simp [Except.map]

theorem bind_map (result : Except ε α) (function : α → β) (next : β → Except ε γ) :
    (result.map function >>= next) = result >>= fun value => next (function value) := by
  cases result <;> rfl

theorem map_map (result : Except ε α) (first : α → β) (second : β → γ) :
    (result.map first).map second = result.map fun value => second (first value) := by
  cases result <;> rfl

theorem map_bind (result : Except ε α) (next : α → Except ε β) (function : β → γ) :
    (result >>= next).map function = result >>= fun value => (next value).map function := by
  cases result <;> rfl

theorem toOption_map (result : Except ε α) (function : α → β) :
    (result.map function).toOption = result.toOption.map function := by
  cases result <;> rfl

theorem mapM_cons_eq_ok_iff
    {function : α → Except ε β} {first : α} {rest : List α} {values : List β} :
    (first :: rest).mapM function = .ok values ↔
      ∃ value others, function first = .ok value ∧ rest.mapM function = .ok others ∧
        values = value :: others := by
  rw [List.mapM_cons, bind_eq_ok_iff]
  simp only [bind_eq_ok_iff, pure_eq_ok_iff]
  constructor
  · intro found
    obtain ⟨value, mapped, others, mappedOthers, same⟩ := found
    exact ⟨value, others, mapped, mappedOthers, same.symm⟩
  · intro found
    obtain ⟨value, others, mapped, mappedOthers, same⟩ := found
    exact ⟨value, mapped, others, mappedOthers, same.symm⟩

theorem length_of_mapM
    {function : α → Except ε β} {items : List α} {values : List β}
    (mapped : items.mapM function = .ok values) : values.length = items.length := by
  induction items generalizing values with
  | nil =>
      cases mapped
      rfl
  | cons first items induction =>
      obtain ⟨made, others, _, mappedOthers, rfl⟩ := mapM_cons_eq_ok_iff.mp mapped
      rw [List.length_cons, List.length_cons, induction mappedOthers]

theorem map_eq_of_mapM
    {function : α → Except ε β} {items : List α} {values : List β}
    (mapped : items.mapM function = .ok values) : items.map function = values.map .ok := by
  induction items generalizing values with
  | nil =>
      cases mapped
      rfl
  | cons first items induction =>
      obtain ⟨value, others, mappedFirst, mappedOthers, rfl⟩ := mapM_cons_eq_ok_iff.mp mapped
      rw [List.map_cons, List.map_cons, mappedFirst, induction mappedOthers]

/-- What was made of an item, and of the items before it. -/
theorem getElem?_of_mapM
    {function : α → Except ε β} {items : List α} {values : List β}
    (mapped : items.mapM function = .ok values) {index : Nat} {value : β}
    (atIndex : values[index]? = some value) :
    ∃ item, items[index]? = some item ∧ function item = .ok value ∧
      (items.take index).mapM function = .ok (values.take index) := by
  induction items generalizing values index with
  | nil =>
      cases mapped
      cases atIndex
  | cons first items induction =>
      obtain ⟨made, others, mappedFirst, mappedOthers, rfl⟩ := mapM_cons_eq_ok_iff.mp mapped
      cases index with
      | zero =>
          cases atIndex
          exact ⟨first, rfl, mappedFirst, rfl⟩
      | succ index =>
          obtain ⟨item, found, mappedItem, before⟩ := induction mappedOthers atIndex
          exact ⟨item, found, mappedItem,
            mapM_cons_eq_ok_iff.mpr ⟨made, _, mappedFirst, before, rfl⟩⟩

/-- There is no failure but the given one. -/
def FailsOnlyWith (error : ε) (result : Except ε α) : Prop :=
  ∀ failure, result = .error failure → failure = error

theorem failsOnlyWith_ok (error : ε) (value : α) : FailsOnlyWith error (.ok value) := by
  intro failure failed
  cases failed

theorem failsOnlyWith_error (error : ε) :
    FailsOnlyWith error (.error error : Except ε α) := by
  intro failure failed
  cases failed
  rfl

theorem FailsOnlyWith.bind
    {error : ε} {result : Except ε α} {next : α → Except ε β}
    (first : FailsOnlyWith error result)
    (later : ∀ value, result = .ok value → FailsOnlyWith error (next value)) :
    FailsOnlyWith error (result >>= next) := by
  intro failure failed
  cases outcome : result with
  | error found =>
      rw [outcome] at failed
      cases failed
      exact first _ outcome
  | ok value =>
      rw [outcome] at failed
      exact later value outcome failure failed

end TypedObject.Outcome
