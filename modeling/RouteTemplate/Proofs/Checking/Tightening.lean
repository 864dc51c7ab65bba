/-
# Further constraints

Constraints beside the enumeration let values through or reject them, and do nothing else. When a
definition gets further constraints that are well typed, a value is admitted if it was admitted
before and satisfies those of them that apply to its type, and checking it fails only where it
failed before.

## Main definitions

* `Constraints.AreCheckable` — patterns are regular expressions, and bounds are numbers
* `Constraints.HoldFor` — a value satisfies the constraints that apply to values of a type
* `Definition.TightenedTo` — a definition without further constraints, and one with them

## Main results

* `Definition.admits_iff_holdFor` — what a definition admits, by its type
* `Definition.TightenedTo.rel_rulesNamedBy` — how one value is checked with further constraints
* `Verdict.rel_ofParams` — how several values are checked with further constraints
-/

import RouteTemplate.Proofs.Checking.Likeness

namespace RouteTemplate

/-! ## Constraints by type -/

/-- The value satisfies the constraints that apply to values of the type, apart from the
enumeration: those on texts apply to strings, and bounds to numbers of either type. -/
def Constraints.HoldFor (c : Constraints Value) : ParameterType → Value → Prop
  | .string, v => ∀ text ∈ v.text?,
      (∀ bound ∈ c.minLength, (Value.int text.length).AtLeast bound) ∧
      (∀ bound ∈ c.maxLength, (Value.int text.length).AtMost bound) ∧
      ∀ pattern ∈ c.pattern, pattern.IsFoundIn text
  | .number, v | .integer, v =>
      (∀ bound ∈ c.minimum, v.AtLeast bound) ∧ ∀ bound ∈ c.maximum, v.AtMost bound
  | .boolean, _ | .date, _ => True

section Values

variable {v : Value} {type : ParameterType}

/-- Only a string is a text. -/
theorem Value.IsOfType.eq_string (h : v.IsOfType type) {text : String} (htext : text ∈ v.text?) :
    type = .string := by
  cases type with
  | string => rfl
  | number => rcases h with ⟨n, rfl, -⟩ | ⟨x, rfl, -⟩ <;> simp [Value.text?] at htext
  | _ =>
    obtain ⟨_, rfl⟩ := h
    simp [Value.text?] at htext

/-- Only numbers of either type are numbers. -/
theorem Value.IsOfType.eq_number_or_integer (h : v.IsOfType type) (hnumber : v.IsOfType .number) :
    type = .number ∨ type = .integer := by
  cases type with
  | number => exact .inl rfl
  | integer => exact .inr rfl
  | string =>
    obtain ⟨text, htext⟩ := h
    exact absurd (hnumber.eq_string htext) (by simp)
  | _ =>
    obtain ⟨_, rfl⟩ := h
    rcases hnumber with ⟨n, hn, -⟩ | ⟨x, hx, -⟩
    · exact absurd hn (by simp)
    · exact absurd hx (by simp)

/-- An integer is a number unless it is huge. -/
theorem Value.IsOfType.number_of_integer (h : v.IsOfType .integer) (hsmall : ¬ v.IsHuge) :
    v.IsOfType .number := by
  obtain ⟨n, rfl⟩ := h
  exact .inl ⟨n, rfl, Nat.lt_of_not_le fun hhuge => hsmall ⟨n, rfl, hhuge⟩⟩

/-- A definition admits the members of its enumeration that are of its type and satisfy the
constraints that apply to the type. -/
theorem Definition.admits_iff_holdFor {d : Definition Value} (hsmall : ¬ v.IsHuge) :
    d.Admits v ↔ v.IsOfType d.type ∧ d.constraints.HoldFor d.type v ∧
      ∀ members ∈ d.constraints.enum, ∃ member ∈ members, v.same member := by
  constructor
  · intro h
    refine ⟨h.ofType, ?_, h.enum⟩
    have hofType := h.ofType
    cases htype : d.type with
    | string =>
      exact fun text htext => ⟨fun bound hbound => h.minLength bound hbound text htext,
        fun bound hbound => h.maxLength bound hbound text htext,
        fun pattern hpattern => h.pattern pattern hpattern text htext⟩
    | number =>
      rw [htype] at hofType
      exact ⟨fun bound hbound => h.minimum bound hbound hofType,
        fun bound hbound => h.maximum bound hbound hofType⟩
    | integer =>
      rw [htype] at hofType
      have hnumber := hofType.number_of_integer hsmall
      exact ⟨fun bound hbound => h.minimum bound hbound hnumber,
        fun bound hbound => h.maximum bound hbound hnumber⟩
    | boolean => trivial
    | date => trivial
  · rintro ⟨hofType, hholds, henum⟩
    have htexts (text : String) (htext : text ∈ v.text?) :
        d.constraints.HoldFor .string v := hofType.eq_string htext ▸ hholds
    have hbounds (hnumber : v.IsOfType .number) : d.constraints.HoldFor .number v := by
      rcases hofType.eq_number_or_integer hnumber with htype | htype
      · exact htype ▸ hholds
      · rw [htype] at hholds
        exact hholds
    exact ⟨hofType, fun bound hbound text htext => (htexts text htext text htext).1 bound hbound,
      fun bound hbound text htext => (htexts text htext text htext).2.1 bound hbound,
      fun pattern hpattern text htext => (htexts text htext text htext).2.2 pattern hpattern,
      fun bound hbound hnumber => (hbounds hnumber).1 bound hbound,
      fun bound hbound hnumber => (hbounds hnumber).2 bound hbound, henum⟩

end Values

/-! ## Checkable constraints -/

/-- The constraints are well typed, so that nothing but the value can make a check fail: patterns
are regular expressions, and bounds on lengths and on numbers are numbers. -/
structure Constraints.AreCheckable (c : Constraints Value) : Prop where
  pattern : ∀ pattern ∈ c.pattern, ∃ source regex, pattern.text? = some source ∧
    Regex.parse [] source = .ok regex
  minLength : ∀ bound ∈ c.minLength, bound.IsNumber
  maxLength : ∀ bound ∈ c.maxLength, bound.IsNumber
  minimum : ∀ bound ∈ c.minimum, bound.IsNumber
  maximum : ∀ bound ∈ c.maximum, bound.IsNumber

section Tests

variable {v bound : Value}

/-- Numbers can be compared. -/
theorem exists_isBelow_eq_ok (hv : v.IsNumber) (hbound : bound.IsNumber) :
    (∃ below, isBelow v bound = .ok below) ∧ ∃ above, isAbove v bound = .ok above := by
  obtain ⟨order, horder⟩ := hv.exists_compare?_eq hbound
  rw [isBelow, isAbove, horder]
  exact ⟨⟨_, rfl⟩, ⟨_, rfl⟩⟩

/-- A regular expression can be searched for. -/
theorem exists_lacksMatch_eq_ok {pattern : Value} {source : String} {regex : Regex}
    (hsource : pattern.text? = some source) (hparse : Regex.parse [] source = .ok regex)
    (text : String) : ∃ lacks, lacksMatch text pattern = .ok lacks := by
  rw [lacksMatch, readPattern, unhashableKind?_of_text? hsource, hsource]
  simp only [hparse]
  exact ⟨_, rfl⟩

/-- A constraint can be checked when the test can be made. -/
theorem exists_broken_eq_ok {constraint : Option Value} {test : Value → Except Fault Bool}
    (h : ∀ bound ∈ constraint, ∃ fails, test bound = .ok fails) (rule : Rule) :
    ∃ rules, broken rule constraint test = .ok rules := by
  cases constraint with
  | none => exact ⟨[], rfl⟩
  | some bound =>
    obtain ⟨fails, hfails⟩ := h bound rfl
    rw [broken, hfails]
    exact ⟨_, rfl⟩

end Tests

namespace Constraints.AreCheckable

variable {c : Constraints Value} (h : c.AreCheckable) {v : Value} {fault : Fault}

include h

theorem exists_checkText_eq_ok (text : String) : ∃ rules, checkText c text = .ok rules := by
  have hlength := Value.isNumber_int text.length
  obtain ⟨short, hshort⟩ := @exists_broken_eq_ok c.minLength (isBelow (.int text.length))
    (fun bound hbound => (exists_isBelow_eq_ok hlength (h.minLength bound hbound)).1) .minLength
  obtain ⟨long, hlong⟩ := @exists_broken_eq_ok c.maxLength (isAbove (.int text.length))
    (fun bound hbound => (exists_isBelow_eq_ok hlength (h.maxLength bound hbound)).2) .maxLength
  obtain ⟨unlike, hunlike⟩ := @exists_broken_eq_ok c.pattern (lacksMatch text)
    (fun pattern hpattern => by
      obtain ⟨source, regex, hsource, hparse⟩ := h.pattern pattern hpattern
      exact exists_lacksMatch_eq_ok hsource hparse text) .pattern
  rw [checkText]
  simp only [hshort, hlong, hunlike]
  exact ⟨_, rfl⟩

/-- Bounds are compared with numbers alone, and cannot fail to be. -/
theorem checkNumber_eq_error_iff :
    checkNumber c v = .error fault ↔ isFiniteNumber v = .error fault := by
  cases hfinite : isFiniteNumber v with
  | error fault' =>
    have herror : checkNumber c v = .error fault' := by
      rw [checkNumber, hfinite]
      rfl
    rw [herror]
    simp
  | ok finite =>
    have hok : ∃ rules, checkNumber c v = .ok rules := by
      rw [checkNumber, hfinite]
      cases finite with
      | false => exact ⟨[], rfl⟩
      | true =>
        have hv := (isFiniteNumber_eq_true_iff.mp hfinite).isNumber
        obtain ⟨small, hsmall⟩ := @exists_broken_eq_ok c.minimum (isBelow v)
          (fun bound hbound => (exists_isBelow_eq_ok hv (h.minimum bound hbound)).1) .minimum
        obtain ⟨large, hlarge⟩ := @exists_broken_eq_ok c.maximum (isAbove v)
          (fun bound hbound => (exists_isBelow_eq_ok hv (h.maximum bound hbound)).2) .maximum
        simp only [hsmall, hlarge]
        exact ⟨_, rfl⟩
    obtain ⟨rules, hrules⟩ := hok
    rw [hrules]
    simp

/-- Constraints that can be checked fail to be so only where it cannot be said whether the
value is a number. -/
theorem checkConstraints_eq_error_iff :
    checkConstraints c v = .error fault ↔ isFiniteNumber v = .error fault := by
  have htext : ∃ rules, v.text?.elim (.ok []) (checkText c) = .ok rules := by
    cases v.text? with
    | none => exact ⟨[], rfl⟩
    | some text => exact h.exists_checkText_eq_ok text
  obtain ⟨rules, hrules⟩ := htext
  rw [checkConstraints_eq, hrules, ← h.checkNumber_eq_error_iff]
  exact Except.map_eq_error_iff

end Constraints.AreCheckable

/-! ## Definitions -/

/-- The first definition has no constraints beside its enumeration. The second one is of the same
type, required as the first one is, with the same enumeration, and has further constraints that can
be checked. -/
structure Definition.TightenedTo (d d' : Definition Value) : Prop where
  type_eq : d.type = d'.type
  required_eq : d.required = d'.required
  enum_eq : d.constraints.enum = d'.constraints.enum
  bare : d.constraints = { Constraints.none with enum := d.constraints.enum }
  checkable : d'.constraints.AreCheckable

namespace Definition.TightenedTo

variable {d d' : Definition Value} (h : d.TightenedTo d')

include h

theorem checkable_bare : d.constraints.AreCheckable := by
  rw [h.bare]
  constructor <;> simp [Constraints.none]

theorem holdFor_bare (type : ParameterType) (v : Value) : d.constraints.HoldFor type v := by
  rw [h.bare]
  cases type <;> simp [Constraints.HoldFor, Constraints.none]

/-- The further constraints admit fewer values, and no others. -/
theorem admits_iff {v : Value} (hsmall : ¬ v.IsHuge) :
    d'.Admits v ↔ d.Admits v ∧ d'.constraints.HoldFor d'.type v := by
  rw [admits_iff_holdFor hsmall, admits_iff_holdFor hsmall, h.type_eq, h.enum_eq]
  constructor
  · rintro ⟨hofType, hholds, henum⟩
    exact ⟨⟨hofType, h.holdFor_bare d'.type v, henum⟩, hholds⟩
  · rintro ⟨⟨hofType, -, henum⟩, hholds⟩
    exact ⟨hofType, hholds, henum⟩

theorem rulesNamedBy_eq_error_iff {v : Value} {fault : Fault} :
    d'.rulesNamedBy v = .error fault ↔ d.rulesNamedBy v = .error fault := by
  rw [rulesNamedBy_eq_error_iff_of_checkConstraints fun _ =>
      h.checkable.checkConstraints_eq_error_iff,
    rulesNamedBy_eq_error_iff_of_checkConstraints fun _ =>
      h.checkable_bare.checkConstraints_eq_error_iff, h.type_eq]

/-- Checking fails as it does without the further constraints. Otherwise the value breaks no rule
when it breaks none without them, and satisfies those that apply to its type or is missing. -/
theorem rel_rulesNamedBy (v : Value) :
    Except.Rel Eq (fun rules rules' => rules' = [] ↔
        rules = [] ∧ (v ≠ .null → d'.constraints.HoldFor d'.type v))
      (d.rulesNamedBy v) (d'.rulesNamedBy v) := by
  by_cases hnull : v = .null
  · subst hnull
    rw [rulesNamedBy_null, rulesNamedBy_null, h.required_eq]
    exact .ok (by simp)
  have hgiven : v.isNull = false := by
    cases v with
    | null => exact absurd rfl hnull
    | _ => rfl
  cases hrules : d.rulesNamedBy v with
  | error fault =>
    rw [h.rulesNamedBy_eq_error_iff.mpr hrules]
    exact .error rfl
  | ok rules =>
    cases hrules' : d'.rulesNamedBy v with
    | error fault =>
      exact absurd (hrules.symm.trans (h.rulesNamedBy_eq_error_iff.mp hrules')) (by simp)
    | ok rules' =>
      have hnil : rules = [] ↔ d.Admits v ∧ ¬ v.IsHuge := by
        rw [← rulesNamedBy_eq_nil_iff hgiven, hrules, Except.ok.injEq]
      have hnil' : rules' = [] ↔ d'.Admits v ∧ ¬ v.IsHuge := by
        rw [← rulesNamedBy_eq_nil_iff hgiven, hrules', Except.ok.injEq]
      refine .ok ?_
      rw [hnil, hnil', imp_iff_right hnull, and_right_comm]
      exact and_congr_left h.admits_iff

end Definition.TightenedTo

/-! ## Several values -/

/-- Each value that is not missing satisfies the constraints that its definition has for values of
its type. -/
def Params.Satisfy (definitions : Definitions) (params : Params) : Prop :=
  ∀ name v, (name, v) ∈ params → v ≠ .null →
    ∀ d ∈ definitions.get? name, d.constraints.HoldFor d.type v

section Several

variable {definitions definitions' : Definitions}

theorem Params.satisfy_cons {name : String} {v : Value} {params : Params} :
    Params.Satisfy definitions ((name, v) :: params) ↔
      (v ≠ .null → ∀ d ∈ definitions.get? name, d.constraints.HoldFor d.type v) ∧
        Params.Satisfy definitions params := by
  constructor
  · intro h
    exact ⟨h name v List.mem_cons_self, fun other w hmem => h other w (List.mem_cons_of_mem _ hmem)⟩
  · rintro ⟨hv, hparams⟩ other w hmem
    rcases List.mem_cons.mp hmem with heq | hmem
    · obtain ⟨rfl, rfl⟩ := Prod.mk.inj heq
      exact hv
    · exact hparams other w hmem

variable (h : ∀ name, Option.Rel Definition.TightenedTo (definitions.get? name)
  (definitions'.get? name))

include h

theorem rel_collectErrors (params : Params) :
    Except.Rel Eq (fun errors errors' => (∀ entry ∈ errors', entry.2 = []) ↔
        (∀ entry ∈ errors, entry.2 = []) ∧ params.Satisfy definitions')
      (collectErrors definitions params) (collectErrors definitions' params) := by
  induction params with
  | nil => exact .ok (by simp [Params.Satisfy])
  | cons entry params ih =>
    obtain ⟨name, v⟩ := entry
    rw [collectErrors, collectErrors]
    have hdefinition := h name
    generalize hd : definitions.get? name = d at hdefinition ⊢
    generalize hd' : definitions'.get? name = d' at hdefinition ⊢
    cases hdefinition with
    | none =>
      -- What has no definition is not checked.
      refine ih.imp fun errors errors' hrest => ?_
      rw [hrest, Params.satisfy_cons, hd']
      simp
    | some htightened =>
      refine (htightened.rel_rulesNamedBy v).bind fun rules rules' hrules => ?_
      refine ih.bind fun errors errors' hrest => .ok ?_
      rw [List.forall_mem_cons, List.forall_mem_cons, hrules, hrest, Params.satisfy_cons, hd']
      simp only [Option.mem_def, Option.some.injEq, forall_eq']
      exact and_and_and_comm

/-- Values conform when they do without the further constraints, and satisfy these. There is no
verdict only where there is none without them. -/
theorem Verdict.rel_ofParams (params : Params) :
    Except.Rel Eq (fun verdict verdict' => verdict'.conforms = true ↔
        verdict.conforms = true ∧ params.Satisfy definitions')
      (Verdict.ofParams params definitions) (Verdict.ofParams params definitions') := by
  refine (rel_collectErrors h params).bind fun errors errors' hrel => .ok ?_
  rw [Verdict.conforms_ofErrors_iff, Verdict.conforms_ofErrors_iff]
  exact hrel

end Several

end RouteTemplate
