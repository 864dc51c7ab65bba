/-
# Definitions that act alike

Two definitions act alike when a path cannot tell them apart: their references capture the same
texts, convert them in the same way, and their values break the same rules or fail to be checked
with the same fault. Definitions that count as the same do so if their constraints are well typed,
although equality goes across the kinds of numbers.

## Main definitions

* `Definition.Alike` — two definitions act alike
* `Value.IsNumber`, `Value.IsMember` — numbers, and members of an enumeration of a type
* `Definition.IsWellTyped` — the constraints of a definition are of the kinds that they should be of

## Main results

* `Definition.alike_of_same` — well-typed definitions that count as the same act alike
-/

import Mathlib.Data.List.Forall2
import RouteTemplate.Proofs.Checking.Admission
import RouteTemplate.Proofs.Value.Comparison

namespace RouteTemplate

open RouteTemplate.Number (Binary64)
open RouteTemplate.Value (Numeric)

/-- The two definitions act alike. -/
structure Definition.Alike (d e : Definition Value) : Prop where
  type_eq : d.type = e.type
  required_eq : d.required = e.required
  isWritable_eq : d.isWritable = e.isWritable
  enum_eq : d.constraints.enum.map (List.map Value.pathText) =
    e.constraints.enum.map (List.map Value.pathText)
  rulesNamedBy_eq : ∀ v, d.rulesNamedBy v = e.rulesNamedBy v

namespace Definition.Alike

variable {c d e : Definition Value}

theorem refl (d : Definition Value) : d.Alike d :=
  ⟨rfl, rfl, rfl, rfl, fun _ => rfl⟩

theorem symm (h : d.Alike e) : e.Alike d :=
  ⟨h.type_eq.symm, h.required_eq.symm, h.isWritable_eq.symm, h.enum_eq.symm,
    fun v => (h.rulesNamedBy_eq v).symm⟩

theorem trans (h : c.Alike d) (h' : d.Alike e) : c.Alike e :=
  ⟨h.type_eq.trans h'.type_eq, h.required_eq.trans h'.required_eq,
    h.isWritable_eq.trans h'.isWritable_eq, h.enum_eq.trans h'.enum_eq,
    fun v => (h.rulesNamedBy_eq v).trans (h'.rulesNamedBy_eq v)⟩

end Definition.Alike

/-! ## Well-typed constraints -/

namespace Value

/-- The value is a number, and not an undefined one. -/
def IsNumber (v : Value) : Prop :=
  ∃ a : Numeric, v.numeric? = some a ∧ ∀ origin, a ≠ .binary (.nan origin)

/-- The value can be a member of an enumeration of the type. Floating-point values are in the
canonical form in which they are read. A parameter type counts as the text of its name, but it
stands in a path by another text, so it is not among the texts here. -/
def IsMember (type : ParameterType) (v : Value) : Prop :=
  match type with
  | .string => ∃ s, v = .text s
  | .integer => ∃ n, v = .int n
  | .number => (∃ n, v = .int n) ∨ ∃ x : Binary64, v = .float x ∧ x.isNan = false ∧ x.IsCanonical
  | .boolean => ∃ b, v = .bool b
  | .date => False

end Value

/-- Patterns are texts, bounds on lengths and on numbers are numbers, and enumerations have members
of the type of the definition. -/
structure Definition.IsWellTyped (d : Definition Value) : Prop where
  pattern : ∀ pattern ∈ d.constraints.pattern, ∃ text, pattern.text? = some text
  minLength : ∀ bound ∈ d.constraints.minLength, bound.IsNumber
  maxLength : ∀ bound ∈ d.constraints.maxLength, bound.IsNumber
  minimum : ∀ bound ∈ d.constraints.minimum, bound.IsNumber
  maximum : ∀ bound ∈ d.constraints.maximum, bound.IsNumber
  enum : ∀ members ∈ d.constraints.enum, ∀ member ∈ members, member.IsMember d.type

/-- Without constraints there is nothing to be typed. -/
theorem Definition.isWellTyped_plain (name : String) : (Definition.plain name).IsWellTyped := by
  constructor <;> simp [Definition.plain, Constraints.none]

/-! ## Members -/

namespace Value

variable {v w : Value}

/-- Numbers can be compared. -/
theorem IsNumber.exists_compare?_eq (hv : v.IsNumber) (hw : w.IsNumber) :
    ∃ order, v.compare? w = some order := by
  obtain ⟨a, ha, -⟩ := hv
  obtain ⟨b, hb, -⟩ := hw
  rw [compare?, ha, hb]
  exact ⟨_, rfl⟩

/-- Numbers that count as one compare alike, and are the same as the same values. Both can be
written, or neither can. -/
theorem IsNumber.congr (hv : v.IsNumber) (hw : w.IsNumber) (h : v.same w = true) :
    (∀ u : Value, u.compare? v = u.compare? w) ∧ (∀ u : Value, u.same v = u.same w) ∧
      v.isWritable = w.isWritable := by
  obtain ⟨a, ha, -⟩ := hv
  obtain ⟨b, hb, hnan⟩ := hw
  have hequal := compare?_eq_of_same ha hb hnan h
  exact ⟨compare?_congr ha hb hequal, same_congr ha hb hequal, isWritable_congr ha hb hequal⟩

theorem isNumber_int (n : Int) : (Value.int n).IsNumber :=
  ⟨.whole n, rfl, by simp⟩

theorem isNumber_float {x : Binary64} (h : x.isNan = false) : (Value.float x).IsNumber := by
  refine ⟨.binary x, rfl, ?_⟩
  rintro origin ⟨⟩
  exact absurd h (by simp [Binary64.isNan])

/-- What is a number in the sense of the types is no undefined one. -/
theorem IsOfType.isNumber (h : v.IsOfType .number) : v.IsNumber := by
  rcases h with ⟨n, rfl, -⟩ | ⟨x, rfl, hx⟩
  · exact isNumber_int n
  · refine isNumber_float ?_
    cases x with
    | nan origin => exact absurd hx (by simp [Binary64.isFinite])
    | _ => rfl

/-- Numbers that are members of an enumeration and count as the same have the same text in a
path. -/
theorem pathText_congr (hv : v.IsMember .number) (hw : w.IsMember .number)
    (h : v.same w = true) : v.pathText = w.pathText := by
  rcases hv with ⟨m, rfl⟩ | ⟨x, rfl, hx, hcanonical⟩
  · rcases hw with ⟨n, rfl⟩ | ⟨y, rfl, hy, -⟩
    · obtain rfl : m = n := by simpa [same, numeric?, Numeric.same, Numeric.compare?] using h
      rfl
    · obtain ⟨b, hb, hnan⟩ := isNumber_float hy
      obtain rfl := Option.some.inj hb
      exact pathText_int_eq_float (compare?_eq_of_same rfl rfl hnan h)
  · rcases hw with ⟨n, rfl⟩ | ⟨y, rfl, hy, hcanonical'⟩
    · exact (pathText_int_eq_float
        (Numeric.compare?_symm (compare?_eq_of_same rfl rfl (by simp) h))).symm
    · obtain ⟨b, hb, hnan⟩ := isNumber_float hy
      obtain rfl := Option.some.inj hb
      exact pathText_float_congr hcanonical hcanonical' (compare?_eq_of_same rfl rfl hnan h)

/-- Members that count as the same have the same text in a path or none, and are the same as the
same values. -/
theorem IsMember.congr {type : ParameterType} (hv : v.IsMember type) (hw : w.IsMember type)
    (h : v.same w = true) :
    v.pathText = w.pathText ∧ (∀ u : Value, u.same v = u.same w) ∧
      v.isWritable = w.isWritable := by
  cases type with
  | string =>
    obtain ⟨s, rfl⟩ := hv
    obtain ⟨t, rfl⟩ := hw
    obtain rfl : t = s := by simpa [same, text?] using h
    exact ⟨rfl, fun _ => rfl, rfl⟩
  | integer =>
    obtain ⟨m, rfl⟩ := hv
    obtain ⟨n, rfl⟩ := hw
    obtain rfl : m = n := by simpa [same, numeric?, Numeric.same, Numeric.compare?] using h
    exact ⟨rfl, fun _ => rfl, rfl⟩
  | number =>
    -- Only here can members of different kinds count as the same.
    have hnumber {v : Value} (hv : v.IsMember .number) : v.IsNumber := by
      rcases hv with ⟨n, rfl⟩ | ⟨x, rfl, hx, -⟩
      · exact isNumber_int n
      · exact isNumber_float hx
    exact ⟨pathText_congr hv hw h, ((hnumber hv).congr (hnumber hw) h).2⟩
  | boolean =>
    obtain ⟨b, rfl⟩ := hv
    obtain ⟨c, rfl⟩ := hw
    obtain rfl : b = c := by
      revert h
      cases b <;> cases c <;> simp [same, numeric?, Numeric.same, Numeric.compare?]
    exact ⟨rfl, fun _ => rfl, rfl⟩
  | date => exact hv.elim

/-- A parameter type counts as the text of its name, but stands in a path by another text. -/
example : (Value.text "string").same (.parameterType .string) = true ∧
    (Value.text "string").pathText ≠ (Value.parameterType .string).pathText := by
  decide +kernel

/-- The members of enumerations that count as the same do so one by one. -/
theorem forall₂_of_sameItems {vs ws : List Value} (h : sameItems vs ws = true) :
    List.Forall₂ (fun v w => v.same w = true) vs ws := by
  induction vs generalizing ws with
  | nil =>
    rw [sameItems, List.isEmpty_iff] at h
    rw [h]
    exact .nil
  | cons v vs ih =>
    cases ws with
    | nil => exact absurd h (by simp [sameItems])
    | cons w ws =>
      rw [sameItems, Bool.and_eq_true] at h
      exact .cons h.1 (ih h.2)

/-- Enumerations of the same members have the same texts in a path or not all of them have one,
and admit the same values. -/
theorem congr_of_sameItems {type : ParameterType} {vs ws : List Value}
    (hvs : ∀ v ∈ vs, v.IsMember type) (hws : ∀ w ∈ ws, w.IsMember type)
    (h : sameItems vs ws = true) :
    vs.map pathText = ws.map pathText ∧ vs.all isWritable = ws.all isWritable ∧
      ∀ u : Value, u.isAmong vs = u.isAmong ws := by
  have hpairs := forall₂_of_sameItems h
  clear h
  induction hpairs with
  | nil => exact ⟨rfl, rfl, fun _ => rfl⟩
  | cons hsame _ ih =>
    obtain ⟨hv, hvs⟩ := List.forall_mem_cons.mp hvs
    obtain ⟨hw, hws⟩ := List.forall_mem_cons.mp hws
    obtain ⟨htext, hamong, hwritable⟩ := hv.congr hw hsame
    obtain ⟨htexts, hall, hrest⟩ := ih hvs hws
    refine ⟨by rw [List.map_cons, List.map_cons, htext, htexts],
      by rw [List.all_cons, List.all_cons, hwritable, hall], fun u => ?_⟩
    have hrest := hrest u
    rw [isAmong, isAmong] at hrest
    rw [isAmong, isAmong, List.any_cons, List.any_cons, hamong, hrest]

end Value

/-! ## Checks -/

section Checks

variable {c d : Constraints Value} {v : Value}

/-- A constraint is checked alike when a test that is made with it is. -/
theorem broken_congr {rule : Rule} {constraint constraint' : Option Value}
    {test : Value → Except Fault Bool} (h : Value.sameOption constraint constraint' = true)
    (htest : ∀ bound ∈ constraint, ∀ bound' ∈ constraint', bound.same bound' = true →
      test bound = test bound') : broken rule constraint test = broken rule constraint' test := by
  cases constraint with
  | none =>
    rw [Value.sameOption, Option.isNone_iff_eq_none] at h
    rw [h]
  | some bound =>
    cases constraint' with
    | none => exact absurd h (by simp [Value.sameOption])
    | some bound' =>
      rw [Value.sameOption] at h
      rw [broken, broken, htest bound rfl bound' rfl h]

/-- Bounds that count as one number are compared alike with every number. -/
theorem isBelow_congr {bound bound' : Value} (hv : v.IsNumber) (hbound : bound.IsNumber)
    (hbound' : bound'.IsNumber) (h : bound.same bound' = true) :
    isBelow v bound = isBelow v bound' ∧ isAbove v bound = isAbove v bound' := by
  have hcompare := (hbound.congr hbound' h).1 v
  obtain ⟨order, horder⟩ := hv.exists_compare?_eq hbound'
  rw [isBelow, isBelow, isAbove, isAbove, hcompare, horder]
  exact ⟨rfl, rfl⟩

/-- What counts as a text is the same text. -/
theorem text?_eq_of_same {w : Value} {source : String} (hv : v.text? = some source)
    (h : v.same w = true) : w.text? = some source := by
  cases v with
  | text s =>
    obtain rfl := Option.some.inj hv
    simpa [Value.same] using h
  | parameterType t =>
    obtain rfl := Option.some.inj hv
    simpa [Value.same] using h
  | _ => exact absurd hv (by simp [Value.text?])

/-- Patterns that are the same text match alike. -/
theorem lacksMatch_congr {pattern pattern' : Value}
    (hpattern : ∃ source, pattern.text? = some source) (h : pattern.same pattern' = true)
    (text : String) : lacksMatch text pattern = lacksMatch text pattern' := by
  obtain ⟨source, hsource⟩ := hpattern
  have hsource' := text?_eq_of_same hsource h
  rw [lacksMatch, lacksMatch, readPattern, readPattern, unhashableKind?_of_text? hsource,
    unhashableKind?_of_text? hsource', hsource, hsource']

end Checks

/-! ## Definitions -/

section Definitions

variable {d e : Definition Value}

/-- Constraints that count as the same do so field by field. -/
private theorem sameConstraints_iff {c c' : Constraints Value} :
    Value.sameConstraints c c' = true ↔
      Value.sameOption c.pattern c'.pattern = true ∧
      Value.sameOption c.minLength c'.minLength = true ∧
      Value.sameOption c.maxLength c'.maxLength = true ∧
      Value.sameOption c.minimum c'.minimum = true ∧
      Value.sameOption c.maximum c'.maximum = true ∧ Value.sameEnum c.enum c'.enum = true := by
  rw [Value.sameConstraints]
  simp only [Bool.and_eq_true, and_assoc]

private theorem same_iff :
    d.same e = true ↔ d.name = e.name ∧ d.type = e.type ∧ d.required = e.required ∧
      Value.sameConstraints d.constraints e.constraints = true := by
  obtain ⟨name, type, required, constraints⟩ := d
  simp only [Definition.same, Value.same, Bool.and_eq_true, beq_iff_eq, and_assoc]

variable (hd : d.IsWellTyped) (he : e.IsWellTyped)
  (h : Value.sameConstraints d.constraints e.constraints = true)

include hd he h

theorem checkText_congr (text : String) :
    checkText d.constraints text = checkText e.constraints text := by
  obtain ⟨hpattern, hminLength, hmaxLength, -⟩ := sameConstraints_iff.mp h
  -- Lengths are integers, so they are compared with the bounds as numbers are.
  have hlength := Value.isNumber_int text.length
  have hshort := @broken_congr .minLength _ _ (isBelow (.int text.length)) hminLength
    fun bound hbound bound' hbound' hsame => (isBelow_congr hlength (hd.minLength bound hbound)
      (he.minLength bound' hbound') hsame).1
  have hlong := @broken_congr .maxLength _ _ (isAbove (.int text.length)) hmaxLength
    fun bound hbound bound' hbound' hsame => (isBelow_congr hlength (hd.maxLength bound hbound)
      (he.maxLength bound' hbound') hsame).2
  have hunlike := @broken_congr .pattern _ _ (lacksMatch text) hpattern
    fun pattern hpattern _ _ hsame => lacksMatch_congr (hd.pattern pattern hpattern) hsame text
  rw [checkText, checkText, hshort, hlong, hunlike]

theorem checkNumber_congr (v : Value) :
    checkNumber d.constraints v = checkNumber e.constraints v := by
  obtain ⟨-, -, -, hminimum, hmaximum, -⟩ := sameConstraints_iff.mp h
  rw [checkNumber, checkNumber]
  -- The bounds are only read for a value that is a finite number.
  cases hfinite : isFiniteNumber v with
  | error fault => rfl
  | ok finite =>
    cases finite with
    | false => rfl
    | true =>
      have hv := (isFiniteNumber_eq_true_iff.mp hfinite).isNumber
      have hsmall := @broken_congr .minimum _ _ (isBelow v) hminimum
        fun bound hbound bound' hbound' hsame => (isBelow_congr hv (hd.minimum bound hbound)
          (he.minimum bound' hbound') hsame).1
      have hlarge := @broken_congr .maximum _ _ (isAbove v) hmaximum
        fun bound hbound bound' hbound' hsame => (isBelow_congr hv (hd.maximum bound hbound)
          (he.maximum bound' hbound') hsame).2
      simp only [hsmall, hlarge]

/-- Enumerations that count as the same have the same texts in a path or not all members have one,
and admit the same values. -/
theorem enum_congr (htype : d.type = e.type) :
    d.constraints.enum.map (List.map Value.pathText) =
        e.constraints.enum.map (List.map Value.pathText) ∧
      d.isWritable = e.isWritable ∧
      ∀ v : Value, d.constraints.enum.map v.isAmong = e.constraints.enum.map v.isAmong := by
  obtain ⟨-, -, -, -, -, henum⟩ := sameConstraints_iff.mp h
  cases hmembers : d.constraints.enum with
  | none =>
    rw [hmembers, Value.sameEnum, Option.isNone_iff_eq_none] at henum
    rw [Definition.isWritable, Definition.isWritable, hmembers, henum]
    exact ⟨rfl, rfl, fun _ => rfl⟩
  | some members =>
    cases hmembers' : e.constraints.enum with
    | none =>
      rw [hmembers, hmembers'] at henum
      exact absurd henum (by simp [Value.sameEnum])
    | some members' =>
      rw [hmembers, hmembers', Value.sameEnum] at henum
      obtain ⟨htexts, hwritable, hamong⟩ := Value.congr_of_sameItems (hd.enum members hmembers)
        (htype ▸ he.enum members' hmembers') henum
      rw [Definition.isWritable, Definition.isWritable, hmembers, hmembers']
      exact ⟨congrArg some htexts, hwritable, fun v => congrArg some (hamong v)⟩

theorem checkConstraints_congr (htype : d.type = e.type) (v : Value) :
    checkConstraints d.constraints v = checkConstraints e.constraints v := by
  have hchoice := (enum_congr hd he h htype).2.2 v
  simp only [checkConstraints, checkText_congr hd he h, checkNumber_congr hd he h]
  cases hmembers : d.constraints.enum with
  | none =>
    rw [hmembers, Option.map_none, eq_comm, Option.map_eq_none_iff] at hchoice
    rw [hchoice]
  | some members =>
    rw [hmembers, Option.map_some, eq_comm, Option.map_eq_some_iff] at hchoice
    obtain ⟨members', hmembers', hamong⟩ := hchoice
    simp only [hmembers', hamong]

end Definitions

/-- Well-typed definitions that count as the same act alike. -/
theorem Definition.alike_of_same {d e : Definition Value} (hd : d.IsWellTyped)
    (he : e.IsWellTyped) (h : d.same e = true) : d.Alike e := by
  obtain ⟨-, htype, hrequired, hconstraints⟩ := same_iff.mp h
  obtain ⟨htexts, hwritable, -⟩ := enum_congr hd he hconstraints htype
  refine ⟨htype, hrequired, hwritable, htexts, fun v => ?_⟩
  rw [rulesNamedBy, rulesNamedBy, rulesBrokenBy, rulesBrokenBy, htype, hrequired,
    checkConstraints_congr hd he hconstraints htype]

end RouteTemplate
