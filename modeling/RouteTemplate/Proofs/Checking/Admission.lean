/-
# What a definition admits

A value breaks no rule exactly when it is of the type of its definition and satisfies each of the
constraints that apply to it. Constraints on texts say nothing about other values, nor do bounds
about what is no number.

## Main definitions

* `Value.IsOfType` — a value is of a type
* `Value.AtLeast`, `Value.AtMost` — a value does not lie below, or above, a bound
* `Value.IsFoundIn` — a pattern matches somewhere in a text
* `Definition.Admits` — a value is of the type of a definition and satisfies its constraints

## Main results

* `Definition.rulesNamedBy_eq_nil_iff` — the values that break no rule
* `Verdict.admits_of_conforms` — values that conform are admitted by their definitions
-/

import RouteTemplate.Proofs.Checking.Unconstrained

namespace RouteTemplate

open RouteTemplate.Number (Binary64)

/-! ## Constraints -/

namespace Value

/-- The value is of the type. A number is finite, and an integer in its place has a finite
floating-point value. -/
def IsOfType (v : Value) : ParameterType → Prop
  | .number => (∃ n, v = .int n ∧ n.natAbs < Binary64.overflowThreshold) ∨
      ∃ x : Binary64, v = .float x ∧ x.isFinite
  | .integer => ∃ n, v = .int n
  | .boolean => ∃ b, v = .bool b
  | .date => ∃ d, v = .date d
  | .string => ∃ s, v.text? = some s

/-- The value can be compared with the bound, and does not lie below it. -/
def AtLeast (v bound : Value) : Prop :=
  ∃ order, v.compare? bound = some order ∧ order ≠ some .lt

/-- The value can be compared with the bound, and does not lie above it. -/
def AtMost (v bound : Value) : Prop :=
  ∃ order, v.compare? bound = some order ∧ order ≠ some .gt

/-- The value is a regular expression that matches somewhere in the text. -/
def IsFoundIn (pattern : Value) (text : String) : Prop :=
  ∃ source regex, pattern.text? = some source ∧ Regex.parse [] source = .ok regex ∧
    (regex.search text.toList).isSome

end Value

/-- A value that a definition admits is of its type, and satisfies the constraints that apply to
it. -/
structure Definition.Admits (definition : Definition Value) (v : Value) : Prop where
  ofType : v.IsOfType definition.type
  minLength : ∀ bound ∈ definition.constraints.minLength, ∀ text ∈ v.text?,
    (Value.int text.length).AtLeast bound
  maxLength : ∀ bound ∈ definition.constraints.maxLength, ∀ text ∈ v.text?,
    (Value.int text.length).AtMost bound
  pattern : ∀ pattern ∈ definition.constraints.pattern, ∀ text ∈ v.text?, pattern.IsFoundIn text
  minimum : ∀ bound ∈ definition.constraints.minimum, v.IsOfType .number → v.AtLeast bound
  maximum : ∀ bound ∈ definition.constraints.maximum, v.IsOfType .number → v.AtMost bound
  enum : ∀ members ∈ definition.constraints.enum, ∃ member ∈ members, v.same member

/-! ## The test for each constraint -/

section Tests

variable {v bound : Value} {text : String}

theorem isFiniteNumber_eq_true_iff :
    isFiniteNumber v = .ok true ↔ v.IsOfType .number := by
  cases v with
  | int n =>
    simp only [isFiniteNumber, Value.IsOfType, Value.int.injEq, reduceCtorEq, false_and,
      exists_false, or_false]
    split
    · rename_i hhuge
      simpa using hhuge
    · rename_i hsmall
      simpa using hsmall
  | float x => simp [isFiniteNumber, Value.IsOfType]
  | _ => simp [isFiniteNumber, Value.IsOfType]

theorem hasType_eq_true_iff {type : ParameterType} :
    hasType type v = .ok true ↔ v.IsOfType type := by
  cases type with
  | number => exact isFiniteNumber_eq_true_iff
  | string => simp [hasType, Value.IsOfType, Option.isSome_iff_exists]
  | _ => cases v <;> simp [hasType, Value.IsOfType]

theorem isBelow_eq_false_iff : isBelow v bound = .ok false ↔ v.AtLeast bound := by
  rw [isBelow, Value.AtLeast]
  cases v.compare? bound <;> simp

theorem isAbove_eq_false_iff : isAbove v bound = .ok false ↔ v.AtMost bound := by
  rw [isAbove, Value.AtMost]
  cases v.compare? bound <;> simp

/-- What is a text can serve as a key. -/
theorem unhashableKind?_of_text? {source : String} (h : v.text? = some source) :
    v.unhashableKind? = none := by
  cases v with
  | text s => rfl
  | parameterType t => rfl
  | _ => exact absurd h (by simp [Value.text?])

theorem lacksMatch_eq_false_iff {pattern : Value} :
    lacksMatch text pattern = .ok false ↔ pattern.IsFoundIn text := by
  have hread {regex : Regex} : readPattern pattern = .ok regex ↔
      ∃ source, pattern.text? = some source ∧ Regex.parse [] source = .ok regex := by
    rw [readPattern]
    cases htext : pattern.text? with
    | none => cases pattern.unhashableKind? <;> simp
    | some source =>
      rw [unhashableKind?_of_text? htext]
      cases hparse : Regex.parse [] source <;> simp [hparse]
  rw [lacksMatch, Except.bind_eq_ok_iff, Value.IsFoundIn]
  simp only [hread, pure, Except.pure, Except.ok.injEq, Option.isNone_eq_false_iff]
  constructor
  · rintro ⟨regex, ⟨source, hsource, hparse⟩, hsearch⟩
    exact ⟨source, regex, hsource, hparse, hsearch⟩
  · rintro ⟨source, regex, hsource, hparse, hsearch⟩
    exact ⟨regex, ⟨source, hsource, hparse⟩, hsearch⟩

/-- A constraint is not broken when it is not given, or the test says so. -/
theorem broken_eq_nil_iff {rule : Rule} {constraint : Option Value}
    {test : Value → Except Fault Bool} :
    broken rule constraint test = .ok [] ↔ ∀ bound ∈ constraint, test bound = .ok false := by
  cases constraint with
  | none => simp [broken]
  | some bound =>
    rw [broken, Except.bind_eq_ok_iff]
    simp only [pure, Except.pure, Except.ok.injEq, ite_eq_right_iff, List.cons_ne_nil, imp_false,
      Bool.not_eq_true, Option.mem_def, Option.some.injEq, forall_eq']
    constructor
    · rintro ⟨_, htest, rfl⟩
      exact htest
    · intro htest
      exact ⟨false, htest, rfl⟩

end Tests

/-! ## All constraints -/

section Checks

variable {constraints : Constraints Value} {v : Value}

theorem checkText_eq_nil_iff {text : String} :
    checkText constraints text = .ok [] ↔
      (∀ bound ∈ constraints.minLength, (Value.int text.length).AtLeast bound) ∧
      (∀ bound ∈ constraints.maxLength, (Value.int text.length).AtMost bound) ∧
      ∀ pattern ∈ constraints.pattern, pattern.IsFoundIn text := by
  simp only [← isBelow_eq_false_iff, ← isAbove_eq_false_iff, ← lacksMatch_eq_false_iff]
  rw [← @broken_eq_nil_iff .minLength, ← @broken_eq_nil_iff .maxLength,
    ← @broken_eq_nil_iff .pattern, checkText]
  constructor
  · intro h
    obtain ⟨short, hshort, h⟩ := Except.bind_eq_ok_iff.mp h
    obtain ⟨long, hlong, h⟩ := Except.bind_eq_ok_iff.mp h
    obtain ⟨unlike, hunlike, h⟩ := Except.bind_eq_ok_iff.mp h
    obtain ⟨hnil, rfl⟩ := List.append_eq_nil_iff.mp (Except.ok.inj h)
    obtain ⟨rfl, rfl⟩ := List.append_eq_nil_iff.mp hnil
    exact ⟨hshort, hlong, hunlike⟩
  · rintro ⟨hshort, hlong, hunlike⟩
    simp only [hshort, hlong, hunlike]
    rfl

/-- Bounds are only compared with numbers. Whether a huge integer is a number cannot be said. -/
theorem checkNumber_eq_nil_iff :
    checkNumber constraints v = .ok [] ↔ ¬ v.IsHuge ∧
      (∀ bound ∈ constraints.minimum, v.IsOfType .number → v.AtLeast bound) ∧
      ∀ bound ∈ constraints.maximum, v.IsOfType .number → v.AtMost bound := by
  rw [checkNumber]
  cases hfinite : isFiniteNumber v with
  | error fault =>
    obtain ⟨-, hhuge⟩ := isFiniteNumber_eq_error_iff.mp hfinite
    exact iff_of_false (by simp [bind, Except.bind]) fun h => h.1 hhuge
  | ok finite =>
    have hsmall : ¬ v.IsHuge := fun hhuge => absurd
      (hfinite.symm.trans (isFiniteNumber_eq_error_iff.mpr ⟨rfl, hhuge⟩)) (by simp)
    rw [and_iff_right hsmall]
    cases finite with
    | false =>
      have hnumber : ¬ v.IsOfType .number := fun hnumber => absurd
        (hfinite.symm.trans (isFiniteNumber_eq_true_iff.mpr hnumber)) (by simp)
      exact iff_of_true rfl ⟨fun _ _ h => absurd h hnumber, fun _ _ h => absurd h hnumber⟩
    | true =>
      have hnumber := isFiniteNumber_eq_true_iff.mp hfinite
      simp only [hnumber, forall_const, ← isBelow_eq_false_iff, ← isAbove_eq_false_iff]
      rw [← @broken_eq_nil_iff .minimum, ← @broken_eq_nil_iff .maximum]
      change (broken .minimum constraints.minimum (isBelow v) >>= fun small =>
        broken .maximum constraints.maximum (isAbove v) >>= fun large =>
          pure (small ++ large)) = .ok [] ↔ _
      constructor
      · intro h
        obtain ⟨small, hsmall, h⟩ := Except.bind_eq_ok_iff.mp h
        obtain ⟨large, hlarge, h⟩ := Except.bind_eq_ok_iff.mp h
        obtain ⟨rfl, rfl⟩ := List.append_eq_nil_iff.mp (Except.ok.inj h)
        exact ⟨hsmall, hlarge⟩
      · rintro ⟨hsmall, hlarge⟩
        exact Except.bind_eq_ok_iff.mpr ⟨[], hsmall, Except.bind_eq_ok_iff.mpr ⟨[], hlarge, rfl⟩⟩

private theorem choice_eq_nil_iff {members : Option (List Value)} :
    (members.elim [] fun members => if v.isAmong members then [] else [Rule.enum]) = [] ↔
      ∀ options ∈ members, ∃ member ∈ options, v.same member := by
  cases members with
  | none => simp
  | some members => simp [Value.isAmong]

/-- The constraints on texts, those on numbers and the enumeration, one after another. -/
theorem checkConstraints_eq : checkConstraints constraints v =
    (v.text?.elim (.ok []) (checkText constraints) >>= fun text =>
      checkNumber constraints v >>= fun number =>
        pure (text ++ number ++
          constraints.enum.elim [] fun members => if v.isAmong members then [] else [.enum])) := by
  rw [checkConstraints]
  cases v.text? <;> cases constraints.enum <;> rfl

theorem checkConstraints_eq_nil_iff :
    checkConstraints constraints v = .ok [] ↔
      (∀ text ∈ v.text?, checkText constraints text = .ok []) ∧
      checkNumber constraints v = .ok [] ∧
      ∀ members ∈ constraints.enum, ∃ member ∈ members, v.same member := by
  have htext : (∀ text ∈ v.text?, checkText constraints text = .ok []) ↔
      v.text?.elim (.ok []) (checkText constraints) = .ok [] := by
    cases v.text? <;> simp
  rw [htext, checkConstraints_eq]
  constructor
  · intro h
    obtain ⟨text, htext, h⟩ := Except.bind_eq_ok_iff.mp h
    obtain ⟨number, hnumber, h⟩ := Except.bind_eq_ok_iff.mp h
    obtain ⟨hnil, hchoice⟩ := List.append_eq_nil_iff.mp (Except.ok.inj h)
    obtain ⟨rfl, rfl⟩ := List.append_eq_nil_iff.mp hnil
    exact ⟨htext, hnumber, choice_eq_nil_iff.mp hchoice⟩
  · rintro ⟨htext, hnumber, hchoice⟩
    refine Except.bind_eq_ok_iff.mpr ⟨[], htext, Except.bind_eq_ok_iff.mpr ⟨[], hnumber, ?_⟩⟩
    exact congrArg Except.ok (choice_eq_nil_iff.mpr hchoice)

end Checks

/-- A value breaks no rule when it is admitted, and is not an integer too large to be compared. -/
theorem Definition.rulesNamedBy_eq_nil_iff {definition : Definition Value} {v : Value}
    (hnull : v.isNull = false) :
    definition.rulesNamedBy v = .ok [] ↔ definition.Admits v ∧ ¬ v.IsHuge := by
  have hnamed : definition.rulesNamedBy v = .ok [] ↔ definition.rulesBrokenBy v = .ok [] := by
    refine Except.map_eq_ok_iff.trans ?_
    simp
  rw [hnamed, rulesBrokenBy, if_neg (Bool.eq_false_iff.mp hnull), Except.bind_eq_ok_iff]
  constructor
  · rintro ⟨ofType, htype, h⟩
    cases ofType with
    | false => exact absurd (Except.ok.inj h) (by simp)
    | true =>
      obtain ⟨htext, hnumber, henum⟩ := checkConstraints_eq_nil_iff.mp h
      obtain ⟨hsmall, hminimum, hmaximum⟩ := checkNumber_eq_nil_iff.mp hnumber
      have htext := fun text htext' => checkText_eq_nil_iff.mp (htext text htext')
      exact ⟨⟨hasType_eq_true_iff.mp htype,
        fun bound hbound text h => (htext text h).1 bound hbound,
        fun bound hbound text h => (htext text h).2.1 bound hbound,
        fun pattern hpattern text h => (htext text h).2.2 pattern hpattern, hminimum, hmaximum,
        henum⟩, hsmall⟩
  · rintro ⟨hadmits, hsmall⟩
    refine ⟨true, hasType_eq_true_iff.mpr hadmits.ofType, checkConstraints_eq_nil_iff.mpr ⟨?_,
      checkNumber_eq_nil_iff.mpr ⟨hsmall, hadmits.minimum, hadmits.maximum⟩, hadmits.enum⟩⟩
    intro text htext
    exact checkText_eq_nil_iff.mpr ⟨fun bound hbound => hadmits.minLength bound hbound text htext,
      fun bound hbound => hadmits.maxLength bound hbound text htext,
      fun pattern hpattern => hadmits.pattern pattern hpattern text htext⟩

/-! ## Several values -/

/-- Without a value, the only rule is whether one is required. -/
theorem Definition.rulesNamedBy_null {definition : Definition Value} :
    definition.rulesNamedBy .null = .ok (if definition.required then ["required"] else []) := by
  cases hrequired : definition.required <;> simp [rulesNamedBy, rulesBrokenBy, Value.isNull,
    hrequired, Rule.name, bind, Except.bind, pure, Except.pure]

/-- Values conform when none of them breaks a rule. -/
theorem Verdict.conforms_ofErrors_iff {errors : Fields (List String)} :
    (Verdict.ofErrors errors).conforms = true ↔ ∀ entry ∈ errors, entry.2 = [] := by
  rw [Verdict.ofErrors, List.isEmpty_iff, List.filter_eq_nil_iff]
  simp

/-- When the errors are collected, each value that has a definition has been checked. -/
theorem exists_of_collectErrors_eq_ok {definitions : Definitions} {params : Params}
    {errors : Fields (List String)} (h : collectErrors definitions params = .ok errors)
    {name : String} {v : Value} (hmem : (name, v) ∈ params) {definition : Definition Value}
    (hdefinition : definitions.get? name = some definition) :
    ∃ rules, definition.rulesNamedBy v = .ok rules ∧ (name, rules) ∈ errors := by
  induction params generalizing errors with
  | nil => exact absurd hmem List.not_mem_nil
  | cons entry params ih =>
    obtain ⟨name', v'⟩ := entry
    rw [collectErrors] at h
    cases hdefinition' : definitions.get? name' with
    | none =>
      rw [hdefinition'] at h
      refine ih h ((List.mem_cons.mp hmem).resolve_left ?_)
      rintro ⟨⟩
      exact absurd (hdefinition'.symm.trans hdefinition) (by simp)
    | some definition' =>
      rw [hdefinition'] at h
      obtain ⟨rules, hrules, h⟩ := Except.bind_eq_ok_iff.mp h
      obtain ⟨rest, hrest, h⟩ := Except.bind_eq_ok_iff.mp h
      obtain rfl := Except.ok.inj h
      rcases List.mem_cons.mp hmem with heq | hmem
      · obtain ⟨rfl, rfl⟩ := Prod.mk.inj heq
        obtain rfl := Option.some.inj (hdefinition'.symm.trans hdefinition)
        exact ⟨rules, hrules, List.mem_cons_self⟩
      · obtain ⟨rules', hrules', hmem'⟩ := ih hrest hmem
        exact ⟨rules', hrules', List.mem_cons_of_mem _ hmem'⟩

/-- Of values that conform, each one that has a definition is admitted by it, unless it is missing
and not required. -/
theorem Verdict.admits_of_conforms {definitions : Definitions} {params : Params} {verdict : Verdict}
    (h : Verdict.ofParams params definitions = .ok verdict) (hconforms : verdict.conforms = true)
    {name : String} {v : Value} (hmem : (name, v) ∈ params) {definition : Definition Value}
    (hdefinition : definitions.get? name = some definition) :
    (v = .null ∧ definition.required = false) ∨ (v ≠ .null ∧ definition.Admits v) := by
  obtain ⟨errors, hcollect, rfl⟩ := Except.map_eq_ok_iff.mp h
  obtain ⟨rules, hrules, hmem⟩ := exists_of_collectErrors_eq_ok hcollect hmem hdefinition
  obtain rfl : rules = [] := Verdict.conforms_ofErrors_iff.mp hconforms (name, rules) hmem
  cases v with
  | null =>
    left
    rw [Definition.rulesNamedBy_null] at hrules
    refine ⟨rfl, Bool.eq_false_iff.mpr fun hrequired => ?_⟩
    rw [if_pos hrequired] at hrules
    exact absurd (Except.ok.inj hrules) (by simp)
  | _ => exact .inr ⟨by simp, ((Definition.rulesNamedBy_eq_nil_iff rfl).mp hrules).1⟩

end RouteTemplate
