/-
# A validator for all parameters and for one at a time

A matcher without a concurrent check of its own has its validator check one parameter at a time. The
validator then sees neither several parameters together nor those without a definition, and is not
asked at all when there are none. So the two ways of matching agree on a path exactly when the
validator decides about all values of the path as it decides about each of them.

## Main definitions

* `Validator.decision` — whether the values conform, or a fault
* `Validator.decisionInTurn` — whether each single value conforms, or the first fault

## Main results

* `Matcher.outcome_matchWith_congr` — matchers that take a path apart alike, and decide alike about
  its values, match it alike
* `Matcher.match?_eq_matchConcurrently?_iff` — when the two ways of matching agree
* `Matcher.match?_ne_matchConcurrently?` — a validator that rejects everything is not asked
-/

import RouteTemplate.Proofs.Matching.Capturing
import RouteTemplate.Proofs.Matching.InTurn

namespace RouteTemplate

/-! ## Decisions -/

namespace Validator

/-- Whether a validator lets values conform, or the fault with which it fails. -/
def decision (validator : Validator) (params : Params) (definitions : Definitions) :
    Except Fault Bool :=
  (validator params definitions).outcome.map Verdict.conforms

/-- Whether a validator that sees one parameter at a time, each that has a definition, lets all of
them conform, or the fault with which it fails first. -/
def decisionInTurn (validator : Validator) (params : Params) (definitions : Definitions) :
    Except Fault Bool :=
  (verdictsInTurn definitions validator.toConcurrentCheck params).map fun verdicts =>
    verdicts.all fun (_, verdict) => verdict.conforms

theorem finishesAtOnce_toConcurrentCheck (validator : Validator) :
    validator.toConcurrentCheck.FinishesAtOnce :=
  fun _ _ _ => ⟨_, rfl⟩

end Validator

/-- Joined verdicts conform when each of them does. -/
theorem Verdict.conforms_join (verdicts : Fields Verdict) :
    (Verdict.join verdicts).conforms = verdicts.all fun (_, verdict) => verdict.conforms := by
  -- A rejection names at least one rule, so every verdict that does not conform is an error.
  have hjoin : Verdict.join verdicts = ⟨(Pool.errors ⟨[], verdicts, [], []⟩).isEmpty,
      Pool.errors ⟨[], verdicts, [], []⟩⟩ := Pool.ofErrors_errors ⟨[], verdicts, [], []⟩
  rw [hjoin, Pool.errors, Bool.eq_iff_iff, List.isEmpty_iff, List.filterMap_eq_nil_iff,
    List.all_eq_true]
  apply forall_congr'
  intro entry
  apply imp_congr_right
  intro _
  simp

/-- Checking concurrently by a validator decides as the validator does for one parameter after
another. -/
theorem conforms_validateConcurrently_toConcurrentCheck {params : Params}
    (hnodup : (Fields.names params).Nodup) (definitions : Definitions) (validator : Validator)
    (group : TaskGroup) :
    (validateConcurrently params definitions validator.toConcurrentCheck group).outcome.map
        Verdict.conforms = validator.decisionInTurn params definitions := by
  rw [outcome_validateConcurrently_of_finished hnodup validator.finishesAtOnce_toConcurrentCheck,
    Validator.decisionInTurn]
  cases verdictsInTurn definitions validator.toConcurrentCheck params with
  | error fault => rfl
  | ok verdicts => exact congrArg Except.ok (Verdict.conforms_join verdicts)

/-! ## Matching with a validator -/

namespace Matcher

variable {m : Matcher} {path matched : String} {params : Params}

/-- The result of a match on which a decision has been made. -/
private def resultOf (matched : String) (params : Params) (conforms : Bool) : Option Match :=
  if conforms then some ⟨matched, params⟩ else none

private theorem resultOf_injective (matched : String) (params : Params)
    {decision decision' : Except Fault Bool} :
    decision.map (resultOf matched params) = decision'.map (resultOf matched params) ↔
      decision = decision' := by
  constructor
  · intro h
    cases decision with
    | error fault =>
      cases decision' with
      | error fault' => exact congrArg Except.error (Except.error.inj h)
      | ok conforms' => exact absurd h (by simp [Except.map])
    | ok conforms =>
      cases decision' with
      | error fault' => exact absurd h (by simp [Except.map])
      | ok conforms' =>
        have h := Except.ok.inj h
        cases conforms <;> cases conforms' <;> simp [resultOf] at h ⊢
  · rintro rfl
    rfl

theorem outcome_accept (m : Matcher) (path matched : String) (params : Params)
    (verdict : Verdict) :
    (m.accept path matched params verdict).outcome =
      .ok (resultOf matched params verdict.conforms) := by
  rw [accept, resultOf]
  cases verdict.conforms <;> rfl

/-- A path that is taken apart matches as is decided about its values. -/
theorem outcome_matchWith_of_takeApart (validator : Validator)
    (h : (m.takeApart path).outcome = .ok (some (matched, params))) :
    (m.matchWith validator path).outcome =
      (validator.decision params m.compiled.definitions).map (resultOf matched params) := by
  rw [matchWith, Run.outcome_bind, h]
  change (validator params m.compiled.definitions >>= fun verdict =>
    m.accept path matched params verdict).outcome = _
  rw [Run.outcome_bind, Validator.decision]
  cases (validator params m.compiled.definitions).outcome with
  | error fault => rfl
  | ok verdict => exact outcome_accept m path matched params verdict

/-- A path matches when it is taken apart into values that are found to conform. -/
theorem outcome_matchWith_eq_some_iff (validator : Validator) :
    (m.matchWith validator path).outcome = .ok (some ⟨matched, params⟩) ↔
      (m.takeApart path).outcome = .ok (some (matched, params)) ∧
        validator.decision params m.compiled.definitions = .ok true := by
  constructor
  · intro h
    rw [matchWith, Run.outcome_bind] at h
    obtain ⟨_ | ⟨matched', params'⟩, htake, h⟩ := Except.bind_eq_ok_iff.mp h
    · exact absurd (Except.ok.inj h) (by simp)
    · dsimp only at h
      rw [Run.outcome_bind] at h
      obtain ⟨verdict, hverdict, h⟩ := Except.bind_eq_ok_iff.mp h
      rw [outcome_accept] at h
      have h := Except.ok.inj h
      cases hconforms : verdict.conforms with
      | false => exact absurd h (by simp [resultOf, hconforms])
      | true =>
        rw [hconforms] at h
        obtain ⟨rfl, rfl⟩ := Match.mk.inj (Option.some.inj h)
        exact ⟨htake, Except.map_eq_ok_iff.mpr ⟨verdict, hverdict, hconforms⟩⟩
  · rintro ⟨htake, hdecision⟩
    rw [outcome_matchWith_of_takeApart validator htake, hdecision]
    rfl

/-- Matching fails when the path is not taken apart, or when there is no verdict on its values. -/
theorem outcome_matchWith_eq_error_iff (validator : Validator) {fault : Fault} :
    (m.matchWith validator path).outcome = .error fault ↔
      (m.takeApart path).outcome = .error fault ∨
        ∃ matched params, (m.takeApart path).outcome = .ok (some (matched, params)) ∧
          (validator params m.compiled.definitions).outcome = .error fault := by
  constructor
  · intro h
    rw [matchWith, Run.outcome_bind] at h
    refine (Except.bind_eq_error_iff.mp h).imp_right ?_
    rintro ⟨_ | ⟨matched, params⟩, htake, h⟩
    · exact absurd h (by simp)
    · refine ⟨matched, params, htake, ?_⟩
      dsimp only at h
      rw [Run.outcome_bind] at h
      rcases Except.bind_eq_error_iff.mp h with hfails | ⟨verdict, -, h⟩
      · exact hfails
      · rw [outcome_accept] at h
        exact absurd h (by simp)
  · rintro (htake | ⟨matched, params, htake, hfails⟩)
    · rw [matchWith, Run.outcome_bind]
      exact Except.bind_eq_error_iff.mpr (.inl htake)
    · rw [outcome_matchWith_of_takeApart validator htake, Validator.decision, hfails]
      rfl

/-- Two matchers match a path alike when they take it apart alike, and their validators decide alike
about its values. -/
theorem outcome_matchWith_congr {m' : Matcher} {validator validator' : Validator}
    (htake : (m.takeApart path).outcome = (m'.takeApart path).outcome)
    (h : ∀ matched params, (m.takeApart path).outcome = .ok (some (matched, params)) →
      validator.decision params m.compiled.definitions =
        validator'.decision params m'.compiled.definitions) :
    (m.matchWith validator path).outcome = (m'.matchWith validator' path).outcome := by
  cases hm : (m.takeApart path).outcome with
  | error fault =>
    rw [matchWith, matchWith, Run.outcome_bind, Run.outcome_bind, ← htake, hm]
    rfl
  | ok taken =>
    cases taken with
    | none =>
      rw [matchWith, matchWith, Run.outcome_bind, Run.outcome_bind, ← htake, hm]
      rfl
    | some taken =>
      obtain ⟨matched, params⟩ := taken
      rw [outcome_matchWith_of_takeApart validator hm,
        outcome_matchWith_of_takeApart validator' (htake.symm.trans hm), h matched params hm]

/-- Two validators match a path alike when they decide alike about its values. -/
theorem outcome_matchWith_eq_iff (validator validator' : Validator) :
    (m.matchWith validator path).outcome = (m.matchWith validator' path).outcome ↔
      ∀ matched params, (m.takeApart path).outcome = .ok (some (matched, params)) →
        validator.decision params m.compiled.definitions =
          validator'.decision params m.compiled.definitions := by
  constructor
  · intro h matched params htake
    rw [outcome_matchWith_of_takeApart validator htake,
      outcome_matchWith_of_takeApart validator' htake] at h
    exact (resultOf_injective matched params).mp h
  · exact outcome_matchWith_congr rfl

/-- With the standard collaborators it makes no difference whether the parameters are checked
concurrently. -/
theorem outcome_matchConcurrently?_of_standard (hm : m.collaborators = .standard) (path : String)
    (group : TaskGroup) :
    (m.matchConcurrently? path group).outcome = (m.match? path).outcome := by
  rw [match?, matchConcurrently?, hm, outcome_matchWith_eq_iff]
  intro matched params htake
  have hdistinct : m.collaborators.chosenSanitizer.KeepsNamesDistinct := by
    rw [hm]
    exact keepsNamesDistinct_standardSanitizer
  exact congrArg (Except.map Verdict.conforms)
    (outcome_validateConcurrently_standardCheck (nodup_names_takeApart hdistinct htake) group)

end Matcher

/-! ## Agreement -/

/-- A matcher that is given a validator and no concurrent check matches a path alike in both ways
exactly when, on the values of the path, the validator decides as it decides for one parameter after
another: whether the values conform or, with which fault it fails. -/
theorem Matcher.match?_eq_matchConcurrently?_iff {m : Matcher} {template : String}
    {parameters : Value} {given : Options.Given} {sanitizer : Option Sanitizer}
    {validator : Validator}
    (hm : (Matcher.ofTemplate template parameters given ⟨sanitizer, some validator, none⟩).outcome =
      .ok m)
    (hsanitizer : ∀ s ∈ sanitizer, Sanitizer.KeepsNamesDistinct s) (path : String)
    (group : TaskGroup) :
    (m.match? path).outcome = (m.matchConcurrently? path group).outcome ↔
      ∀ matched params, (m.takeApart path).outcome = .ok (some (matched, params)) →
        validator.decision params m.compiled.definitions =
          validator.decisionInTurn params m.compiled.definitions := by
  obtain ⟨declarations, options, compiled, -, -, -, rfl⟩ := Matcher.exists_of_ofTemplate hm
  have hdistinct : Sanitizer.KeepsNamesDistinct
      (Collaborators.chosenSanitizer ⟨sanitizer, some validator, none⟩) := by
    cases sanitizer with
    | none => exact keepsNamesDistinct_standardSanitizer
    | some s => exact hsanitizer s rfl
  rw [Matcher.match?, Matcher.matchConcurrently?, Matcher.outcome_matchWith_eq_iff]
  apply forall_congr'
  intro matched
  apply forall_congr'
  intro params
  apply imp_congr_right
  intro htake
  -- The concurrent checks come to the decision about one value after another.
  have hturn := conforms_validateConcurrently_toConcurrentCheck
    (Matcher.nodup_names_takeApart hdistinct htake) compiled.definitions validator group
  exact Eq.congr_right hturn

/-- A validator that rejects one value of one parameter decides about each value apart. -/
theorem Matcher.match?_eq_matchConcurrently?_of_rejecting_no :
    ∃ m, (Matcher.ofTemplate "/{route}" .null .none
        ⟨none, some fun params _ => pure ⟨!(params.any fun (_, v) => v.text? == some "no"), []⟩,
          none⟩).outcome = .ok m ∧
      (∀ s ∈ (none : Option Sanitizer), Sanitizer.KeepsNamesDistinct s) ∧
      (m.match? "/no").outcome = .ok none ∧
      (m.match? "/no").outcome = (m.matchConcurrently? "/no").outcome := by
  have hmatcher : ∃ m, (Matcher.ofTemplate "/{route}" .null .none
        ⟨none, some fun params _ => pure ⟨!(params.any fun (_, v) => v.text? == some "no"), []⟩,
          none⟩).outcome = .ok m ∧
      (m.match? "/no").outcome = .ok none ∧
      (m.takeApart "/no").outcome = .ok (some ("/no", [("route", .text "no")])) ∧
      m.compiled.definitions = [("route", .plain "route")] :=
    ⟨_, rfl, rfl, rfl, rfl⟩
  obtain ⟨m, hm, hmatch, htake, hdefinitions⟩ := hmatcher
  refine ⟨m, hm, by simp, hmatch, ?_⟩
  refine (Matcher.match?_eq_matchConcurrently?_iff hm (by simp) "/no" .fair).mpr ?_
  intro matched params htake'
  cases htake.symm.trans htake'
  rw [hdefinitions]
  rfl

/-- A validator that rejects everything is not asked when a template has no parameters: the path
matches with its values checked concurrently, and only so. -/
theorem Matcher.match?_ne_matchConcurrently? :
    ∃ m, (Matcher.ofTemplate "/a" .null .none
        ⟨none, some fun _ _ => pure ⟨false, []⟩, none⟩).outcome = .ok m ∧
      (m.match? "/a").outcome = .ok none ∧
      (m.matchConcurrently? "/a").outcome = .ok (some ⟨"/a", []⟩) := by
  refine ⟨_, rfl, ?_, ?_⟩
  · rfl
  · rfl

end RouteTemplate
