/-
# Checking without constraints

A description that gives a type and says whether a parameter is required, but no constraint,
resolves to a definition without constraints. Checking a value against such a definition can fail in
one way only: an integer that has no finite floating-point value is refused where a number is
expected.

## Main definitions

* `Value.DeclaresNoConstraint` — a description without constraints
* `Value.IsHuge` — an integer without a finite floating-point value

## Main results

* `Definition.constraints_eq_none` — such a description gives no constraints
* `Definition.rulesNamedBy_eq_error_iff` — how checking one value fails
* `collectErrors_eq_error_iff` — how checking several values fails
-/

import RouteTemplate.Checking.Verdict
import RouteTemplate.Parameter.Resolution
import RouteTemplate.Proofs.Except

namespace RouteTemplate

/-! ## Descriptions -/

/-- The fields under which a description gives constraints. -/
def constraintKeys : List String :=
  ["constraints", "pattern", "minLength", "min_length", "maxLength", "max_length", "minimum",
    "maximum", "enum"]

/-- The description gives no constraint. -/
def Value.DeclaresNoConstraint : Value → Prop
  | .definition d => d.constraints = .none
  | description => ∀ key ∈ constraintKeys, description.field? key = none

theorem constraintsOfValue_eq_none {description : Value}
    (h : ∀ key ∈ constraintKeys, description.field? key = none) :
    Constraints.ofValue description = .ok .none := by
  have hapart : (description.field? "constraints").getD .null = .null := by
    rw [h "constraints" (by decide)]
    rfl
  -- Neither place gives anything under any of the names.
  have hnone {keys : List String} (hkeys : keys ⊆ constraintKeys) :
      constraint? description .null keys = none := by
    have hnull : Value.null.firstGiven? keys = none := by
      rw [Value.firstGiven?, List.findSome?_eq_none_iff]
      intro key _
      rfl
    have hbeside : description.firstGiven? keys = none := by
      rw [Value.firstGiven?, List.findSome?_eq_none_iff]
      intro key hkey
      exact h key (hkeys hkey)
    rw [constraint?, hnull, hbeside]
    rfl
  simp only [Constraints.ofValue, hapart]
  rw [hnone (by decide), hnone (by decide), hnone (by decide), hnone (by decide), hnone (by decide),
    hnone (by decide)]
  rfl

/-- A description without constraints resolves to a definition without constraints. -/
theorem Definition.constraints_eq_none {name : String} {description : Value}
    {definition : Definition Value} (h : description.DeclaresNoConstraint)
    (hdefinition : Definition.ofValue name description = .ok definition) :
    definition.constraints = .none := by
  have hgiven (hkeys : ∀ key ∈ constraintKeys, description.field? key = none)
      (hdefinition : (do
        return {
          name
          type := ((description.field? "type").map ParameterType.ofValue).getD .string
          required := ((description.field? "required").map Value.isTruthy).getD true
          constraints := ← Constraints.ofValue description } : Except Fault (Definition Value)) =
        .ok definition) : definition.constraints = .none := by
    rw [constraintsOfValue_eq_none hkeys] at hdefinition
    rw [← Except.ok.inj hdefinition]
  cases description with
  | null =>
    rw [← Except.ok.inj hdefinition]
    rfl
  | definition d =>
    rw [← Except.ok.inj hdefinition]
    exact h
  | _ => exact hgiven h hdefinition

/-! ## Values -/

/-- The value is an integer that has no finite floating-point value. -/
def Value.IsHuge (v : Value) : Prop :=
  ∃ n, v = .int n ∧ Number.Binary64.overflowThreshold ≤ n.natAbs

theorem isFiniteNumber_eq_error_iff {v : Value} {fault : Fault} :
    isFiniteNumber v = .error fault ↔ fault = .integerTooLarge ∧ v.IsHuge := by
  cases v with
  | int n =>
    rw [isFiniteNumber]
    split
    · rename_i hhuge
      constructor
      · intro h
        exact ⟨(Except.error.inj h).symm, n, rfl, hhuge⟩
      · rintro ⟨rfl, -⟩
        rfl
    · rename_i hsmall
      constructor
      · intro h
        exact absurd h (by simp)
      · rintro ⟨-, m, hm, hhuge⟩
        obtain rfl := Value.int.inj hm
        exact absurd hhuge hsmall
  | _ => simp [isFiniteNumber, Value.IsHuge]

/-- Without constraints there is only the question whether a value is a number. -/
theorem checkConstraints_none (v : Value) :
    checkConstraints .none v = (isFiniteNumber v).map fun _ => [] := by
  have hnumber : checkNumber .none v = (isFiniteNumber v).map fun _ => [] := by
    rw [checkNumber]
    cases isFiniteNumber v with
    | error fault => rfl
    | ok finite => cases finite <;> rfl
  have htext (text : String) : checkText .none text = .ok [] := rfl
  simp only [checkConstraints, hnumber, htext]
  cases v.text? with
  | none => cases isFiniteNumber v <;> rfl
  | some text => cases isFiniteNumber v <;> rfl

/-- A value is found not to be of a type, except that a huge integer is refused for a number. -/
theorem hasType_eq_error_iff {type : ParameterType} {v : Value} {fault : Fault} :
    hasType type v = .error fault ↔ fault = .integerTooLarge ∧ type = .number ∧ v.IsHuge := by
  cases type with
  | number => simpa [hasType] using isFiniteNumber_eq_error_iff
  | _ => simp [hasType]

/-- Only an integer is huge, and it is of the type integer and of no other but number. -/
theorem Value.IsHuge.type_eq {v : Value} (h : v.IsHuge) {type : ParameterType}
    (htype : hasType type v = .ok true) : type = .number ∨ type = .integer := by
  obtain ⟨n, rfl, -⟩ := h
  cases type with
  | number => exact .inl rfl
  | integer => exact .inr rfl
  | _ => exact absurd (Except.ok.inj htype) (by simp [Value.text?])

theorem Value.IsHuge.isNull {v : Value} (h : v.IsHuge) : v.isNull = false := by
  obtain ⟨n, rfl, -⟩ := h
  rfl

/-- When the constraints fail to be checked only where it cannot be said whether the value is a
number, checking the value fails only when it is a huge integer in place of a number. -/
theorem Definition.rulesNamedBy_eq_error_iff_of_checkConstraints {definition : Definition Value}
    {v : Value} (h : ∀ fault, checkConstraints definition.constraints v = .error fault ↔
      isFiniteNumber v = .error fault) {fault : Fault} :
    definition.rulesNamedBy v = .error fault ↔
      fault = .integerTooLarge ∧ (definition.type = .number ∨ definition.type = .integer) ∧
        v.IsHuge := by
  have hnamed : definition.rulesNamedBy v = .error fault ↔
      definition.rulesBrokenBy v = .error fault := Except.map_eq_error_iff
  rw [hnamed, rulesBrokenBy]
  constructor
  · intro hfails
    split at hfails
    · exact absurd hfails (by simp)
    · rcases Except.bind_eq_error_iff.mp hfails with htype | ⟨ofType, htype, hfails⟩
      · obtain ⟨hfault, hnumber, hhuge⟩ := hasType_eq_error_iff.mp htype
        exact ⟨hfault, .inl hnumber, hhuge⟩
      · split at hfails
        · -- A value of the type is a number that is not finite.
          rename_i hofType
          obtain ⟨hfault, hhuge⟩ := isFiniteNumber_eq_error_iff.mp ((h fault).mp hfails)
          exact ⟨hfault, hhuge.type_eq (hofType ▸ htype), hhuge⟩
        · exact absurd hfails (by simp [pure, Except.pure])
  · rintro ⟨rfl, htype, hhuge⟩
    have hfinite : isFiniteNumber v = .error .integerTooLarge :=
      isFiniteNumber_eq_error_iff.mpr ⟨rfl, hhuge⟩
    rw [hhuge.isNull]
    rcases htype with hnumber | hinteger
    · rw [hnumber, hasType, hfinite]
      rfl
    · have hcheck := (h _).mpr hfinite
      obtain ⟨n, rfl, -⟩ := hhuge
      rw [hinteger]
      exact hcheck

/-- Without constraints, checking a value fails only when it is a huge integer in place of a
number. -/
theorem Definition.rulesNamedBy_eq_error_iff {definition : Definition Value}
    (h : definition.constraints = .none) {v : Value} {fault : Fault} :
    definition.rulesNamedBy v = .error fault ↔
      fault = .integerTooLarge ∧ (definition.type = .number ∨ definition.type = .integer) ∧
        v.IsHuge := by
  refine rulesNamedBy_eq_error_iff_of_checkConstraints fun fault => ?_
  rw [h, checkConstraints_none]
  exact Except.map_eq_error_iff

/-! ## Several values -/

section Several

variable {definitions : Definitions} {params : Params} {fault : Fault}

/-- There is no verdict when the errors cannot be collected. -/
theorem Verdict.ofParams_eq_error_iff :
    Verdict.ofParams params definitions = .error fault ↔
      collectErrors definitions params = .error fault :=
  Except.map_eq_error_iff

/-- Checking several values fails as it fails for one of them. -/
theorem exists_of_collectErrors_eq_error (h : collectErrors definitions params = .error fault) :
    ∃ name v definition, (name, v) ∈ params ∧ definitions.get? name = some definition ∧
      definition.rulesNamedBy v = .error fault := by
  induction params with
  | nil => exact absurd h (by simp [collectErrors])
  | cons entry params ih =>
    obtain ⟨name, v⟩ := entry
    have hlater (h : collectErrors definitions params = .error fault) :
        ∃ name' v' definition, (name', v') ∈ (name, v) :: params ∧
          definitions.get? name' = some definition ∧
          definition.rulesNamedBy v' = .error fault := by
      obtain ⟨name', v', definition, hmem, hfails⟩ := ih h
      exact ⟨name', v', definition, List.mem_cons_of_mem _ hmem, hfails⟩
    rw [collectErrors] at h
    cases hdefinition : definitions.get? name with
    | none =>
      rw [hdefinition] at h
      exact hlater h
    | some definition =>
      rw [hdefinition] at h
      rcases Except.bind_eq_error_iff.mp h with hrules | ⟨rules, -, h⟩
      · exact ⟨name, v, definition, List.mem_cons_self, hdefinition, hrules⟩
      · rcases Except.bind_eq_error_iff.mp h with hrest | ⟨errors, -, h⟩
        · exact hlater hrest
        · exact absurd h (by simp [pure, Except.pure])

/-- Checking several values fails if it fails for one of them, though it may be with the fault of
another. -/
theorem exists_collectErrors_eq_error {name : String} {v : Value} {definition : Definition Value}
    (hmem : (name, v) ∈ params) (hdefinition : definitions.get? name = some definition)
    (h : definition.rulesNamedBy v = .error fault) :
    ∃ fault', collectErrors definitions params = .error fault' := by
  induction params with
  | nil => exact absurd hmem List.not_mem_nil
  | cons entry params ih =>
    obtain ⟨name', v'⟩ := entry
    rw [collectErrors]
    cases hdefinition' : definitions.get? name' with
    | none =>
      have hne : (name, v) ≠ (name', v') := by
        rintro ⟨⟩
        exact absurd (hdefinition'.symm.trans hdefinition) (by simp)
      exact ih ((List.mem_cons.mp hmem).resolve_left hne)
    | some definition' =>
      cases hrules : definition'.rulesNamedBy v' with
      | error fault' =>
        simp only [hrules]
        exact ⟨fault', rfl⟩
      | ok rules =>
        have hne : (name, v) ≠ (name', v') := by
          rintro ⟨⟩
          obtain rfl := Option.some.inj (hdefinition'.symm.trans hdefinition)
          exact absurd (hrules.symm.trans h) (by simp)
        obtain ⟨fault', hfails⟩ := ih ((List.mem_cons.mp hmem).resolve_left hne)
        simp only [hrules, hfails]
        exact ⟨fault', rfl⟩

/-- Without constraints, checking several values fails when one of them is a huge integer in place
of a number. -/
theorem collectErrors_eq_error_iff
    (h : ∀ name definition, definitions.get? name = some definition →
      definition.constraints = .none) :
    collectErrors definitions params = .error fault ↔
      fault = .integerTooLarge ∧ ∃ name v definition, (name, v) ∈ params ∧
        definitions.get? name = some definition ∧
        (definition.type = .number ∨ definition.type = .integer) ∧ v.IsHuge := by
  constructor
  · intro hfails
    obtain ⟨name, v, definition, hmem, hdefinition, hrules⟩ :=
      exists_of_collectErrors_eq_error hfails
    obtain ⟨hfault, htype⟩ :=
      (Definition.rulesNamedBy_eq_error_iff (h name definition hdefinition)).mp hrules
    exact ⟨hfault, name, v, definition, hmem, hdefinition, htype⟩
  · rintro ⟨rfl, name, v, definition, hmem, hdefinition, htype⟩
    have hrules : definition.rulesNamedBy v = .error .integerTooLarge :=
      (Definition.rulesNamedBy_eq_error_iff (h name definition hdefinition)).mpr ⟨rfl, htype⟩
    obtain ⟨fault, hfails⟩ := exists_collectErrors_eq_error hmem hdefinition hrules
    -- Whichever value fails first, it is for the same reason.
    obtain ⟨_, _, definition', -, hdefinition', hrules'⟩ := exists_of_collectErrors_eq_error hfails
    obtain ⟨rfl, -⟩ :=
      (Definition.rulesNamedBy_eq_error_iff (h _ definition' hdefinition')).mp hrules'
    exact hfails

end Several

end RouteTemplate
