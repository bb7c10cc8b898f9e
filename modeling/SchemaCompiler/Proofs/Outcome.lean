/-!
# Outcomes of steps

A computation that fails at its first error succeeds exactly if each step does. The
lemmas here take a sequence of two steps apart.
-/

namespace SchemaCompiler
namespace Outcome

@[simp] theorem ok_bind
    (value : α)
    (next : α → Except ε β) :
    (Except.ok value >>= next) = next value := rfl

@[simp] theorem error_bind
    (cause : ε)
    (next : α → Except ε β) :
    (Except.error cause >>= next) = Except.error cause := rfl

@[simp] theorem map_ok
    (change : α → β)
    (value : α) :
    (change <$> (Except.ok value : Except ε α)) = Except.ok (change value) := rfl

@[simp] theorem map_error
    (change : α → β)
    (cause : ε) :
    (change <$> (Except.error cause : Except ε α)) = Except.error cause := rfl

/-- A sequence has a result exactly if both steps have one. -/
theorem bind_eq_ok_iff
    {first : Except ε α}
    {next : α → Except ε β}
    {result : β} :
    (first >>= next) = .ok result ↔
      ∃ value, first = .ok value ∧ next value = .ok result := by
  cases first with
  | error cause => simp
  | ok value => simp

/-- A sequence fails with the error of its first step or else with that of its
second. -/
theorem bind_eq_error_iff
    {first : Except ε α}
    {next : α → Except ε β}
    {cause : ε} :
    (first >>= next) = .error cause ↔
      first = .error cause ∨ ∃ value, first = .ok value ∧ next value = .error cause := by
  cases first with
  | error cause => simp
  | ok value => simp

/-- Sequences with one first step are equal if they go on alike from each of its results. -/
theorem bind_congr_of_ok
    {first : Except ε α}
    {next other : α → Except ε β}
    (alike : ∀ value, first = .ok value → next value = other value) :
    (first >>= next) = (first >>= other) := by
  cases first with
  | error cause => rfl
  | ok value => exact alike value rfl

/-- A sequence whose second step always has a result fails exactly if the first one does. -/
theorem bind_pure_eq_error_iff
    {first : Except ε α}
    {change : α → β}
    {cause : ε} :
    (first >>= fun value => return change value) = .error cause ↔ first = .error cause := by
  cases first with
  | error cause => simp
  | ok value => simp [pure, Except.pure]

/-- An outcome whose error is known is a result exactly if there is none. -/
theorem exists_ok_iff_of_error_iff
    {outcome : Except ε α}
    {error? : Option ε}
    (fails : ∀ cause, outcome = .error cause ↔ error? = some cause) :
    (∃ result, outcome = .ok result) ↔ error? = none := by
  cases outcome with
  | error cause => simp [(fails cause).mp rfl]
  | ok result =>
      have absent : error? = none := by
        apply Option.eq_none_iff_forall_ne_some.mpr
        intro cause present
        cases (fails cause).mpr present
      simp [absent]

/-- A changed outcome is a result exactly if it was one before. -/
theorem map_eq_ok_iff
    {outcome : Except ε α}
    {change : α → β}
    {result : β} :
    outcome.map change = .ok result ↔ ∃ value, outcome = .ok value ∧ change value = result := by
  cases outcome <;> simp [Except.map]

/-- A changed outcome fails exactly if it failed before, with the same error. -/
theorem map_eq_error_iff
    {outcome : Except ε α}
    {change : α → β}
    {cause : ε} :
    outcome.map change = .error cause ↔ outcome = .error cause := by
  cases outcome <;> simp [Except.map]

/-- Outcomes that look the same are one error, or two results that look the same. -/
theorem error_or_ok_of_map_eq
    {left : Except ε α}
    {right : Except ε β}
    {viewLeft : α → γ}
    {viewRight : β → γ}
    (same : left.map viewLeft = right.map viewRight) :
    (∃ cause, left = .error cause ∧ right = .error cause) ∨
      ∃ value other, left = .ok value ∧ right = .ok other ∧ viewLeft value = viewRight other := by
  cases left with
  | error cause =>
      cases right with
      | error other =>
          cases same
          exact .inl ⟨cause, rfl, rfl⟩
      | ok other => cases same
  | ok value =>
      cases right with
      | error cause => cases same
      | ok other => exact .inr ⟨value, other, rfl, rfl, Except.ok.inj same⟩

@[simp] theorem toOption_ok (value : α) :
    (Except.ok value : Except ε α).toOption = some value := rfl

@[simp] theorem toOption_error (cause : ε) :
    (Except.error cause : Except ε α).toOption = none := rfl

@[simp] theorem toOption_pure (value : α) :
    (pure value : Except ε α).toOption = some value := rfl

/-- The result of a sequence, errors being forgotten. -/
@[simp] theorem toOption_bind
    (first : Except ε α)
    (next : α → Except ε β) :
    (first >>= next).toOption = first.toOption.bind fun value => (next value).toOption := by
  cases first <;> rfl

theorem toOption_eq_some_iff
    {outcome : Except ε α}
    {value : α} :
    outcome.toOption = some value ↔ outcome = .ok value := by
  cases outcome <;> simp

end Outcome
end SchemaCompiler
