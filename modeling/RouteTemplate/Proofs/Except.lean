/-
# Results of several steps

A computation that may fail goes on only after a step that succeeds, so it succeeds when all its
steps do, and fails as the first step that does.

## Main definitions

* `Except.Rel` — two computations that succeed or fail alike

## Main results

* `Except.bind_eq_ok_iff`, `Except.bind_eq_error_iff` — one step after another
* `Except.map_eq_ok_iff`, `Except.map_eq_error_iff` — a function of the result
-/

namespace Except

variable {ε α β : Type} {x : Except ε α}

theorem bind_eq_ok_iff {f : α → Except ε β} {b : β} :
    x >>= f = .ok b ↔ ∃ a, x = .ok a ∧ f a = .ok b := by
  cases x with
  | error fault => simp [bind, Except.bind]
  | ok a => simp [bind, Except.bind]

theorem bind_eq_error_iff {f : α → Except ε β} {fault : ε} :
    x >>= f = .error fault ↔ x = .error fault ∨ ∃ a, x = .ok a ∧ f a = .error fault := by
  cases x with
  | error fault' => simp [bind, Except.bind]
  | ok a => simp [bind, Except.bind]

theorem map_eq_ok_iff {f : α → β} {b : β} : x.map f = .ok b ↔ ∃ a, x = .ok a ∧ f a = b := by
  cases x with
  | error fault => simp [Except.map]
  | ok a => simp [Except.map]

theorem map_eq_error_iff {f : α → β} {fault : ε} : x.map f = .error fault ↔ x = .error fault := by
  cases x with
  | error fault' => simp [Except.map]
  | ok a => simp [Except.map]

/-! ## Two computations -/

/-- Both computations succeed with results that are related, or both fail with faults that are. -/
inductive Rel {ε' β' : Type} (E : ε → ε' → Prop) (R : β → β' → Prop) :
    Except ε β → Except ε' β' → Prop
  | error {fault : ε} {fault' : ε'} (h : E fault fault') : Rel E R (.error fault) (.error fault')
  | ok {b : β} {b' : β'} (h : R b b') : Rel E R (.ok b) (.ok b')

section Rel

variable {ε' α' β' : Type} {E : ε → ε' → Prop} {R : α → α' → Prop} {S : β → β' → Prop}
  {x' : Except ε' α'}

theorem Rel.bind (h : Rel E R x x') {f : α → Except ε β} {f' : α' → Except ε' β'}
    (hf : ∀ a a', R a a' → Rel E S (f a) (f' a')) : Rel E S (x >>= f) (x' >>= f') := by
  cases h with
  | error h => exact .error h
  | ok h => exact hf _ _ h

theorem Rel.imp {S : α → α' → Prop} (h : Rel E R x x') (himp : ∀ a a', R a a' → S a a') :
    Rel E S x x' := by
  cases h with
  | error h => exact .error h
  | ok h => exact .ok (himp _ _ h)

theorem Rel.map (h : Rel E R x x') {f : α → β} {f' : α' → β'}
    (hf : ∀ a a', R a a' → S (f a) (f' a')) : Rel E S (x.map f) (x'.map f') := by
  cases h with
  | error h => exact .error h
  | ok h => exact .ok (hf _ _ h)

/-- Results that are related are those of the computations. -/
theorem Rel.with_eq (h : Rel E R x x') :
    Rel E (fun a a' => R a a' ∧ x = .ok a ∧ x' = .ok a') x x' := by
  cases h with
  | error h => exact .error h
  | ok h => exact .ok ⟨h, rfl, rfl⟩

end Rel

end Except
