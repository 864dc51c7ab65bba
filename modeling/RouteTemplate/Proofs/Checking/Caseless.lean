/-
# Values of texts that differ in case

The forms of the types but string are made of signs, digits, names of days and months and truth
values, which may be written in either case. So two texts of a type that differ in the case of
letters of ASCII alone denote the same value, or none. Captured texts that differ in this way are
decoded alike and converted to the same value or to texts that differ in this way as well, and a
definition without an enumeration and a pattern finds the same rules broken.

## Main definitions

* `Value.Like` — the same value, or texts that differ in case
* `Params.Like` — such values under the same names
* `Definition.IsCaseless` — a definition that compares no letters

## Main results

* `Denotation.of_forall₂` — what a text denotes, it denotes in either case
* `Definition.rel_decodeGroup` — captures of different case become values that are alike
* `Verdict.ofParams_congr` — values that are alike have the same verdict
-/

import RouteTemplate.Proofs.Checking.Denotation
import RouteTemplate.Proofs.Matching.Capturing
import RouteTemplate.Proofs.Template.Decoded

namespace RouteTemplate

open Regex (CaseMode)
open Template

variable {sensitive : Bool}

/-! ## Dates -/

namespace Template

/-- What is like a text with a mark in it has the same mark there. -/
theorem exists_of_forall₂_append_cons {u v text : List Char} {mark : Char}
    (hmark : CaseMode.isCased .ascii mark.toNat = false)
    (h : List.Forall₂ (SameLetter sensitive) (u ++ mark :: v) text) :
    ∃ u' v', List.Forall₂ (SameLetter sensitive) u u' ∧ List.Forall₂ (SameLetter sensitive) v v' ∧
      text = u' ++ mark :: v' := by
  obtain ⟨u', rest, hu, hrest, rfl⟩ := exists_of_forall₂_append h
  obtain ⟨mark', v', hsame, hv, rfl⟩ := List.forall₂_cons_left_iff.mp hrest
  obtain rfl := hsame.symm.eq_of_uncased hmark
  exact ⟨u', v', hu, hv, rfl⟩

/-- Digits have no case. -/
theorem eq_of_forall₂_of_isDigit {digits text : List Char} (hdigits : ∀ c ∈ digits, c.isDigit)
    (h : List.Forall₂ (SameLetter sensitive) digits text) : text = digits :=
  eq_of_mem_word h fun c hc => isCased_of_isDigit (hdigits c hc)

/-- Names that are written in another case name the same day, month and zone. -/
theorem WrittenDate.IsWritten.exists_of_forall₂ {w : WrittenDate} {month : Nat}
    (h : w.IsWritten sensitive month) {text : List Char}
    (hlike : List.Forall₂ (SameLetter sensitive) w.chars text) :
    ∃ dayName monthName zone,
      { w with dayName, monthName, zone : WrittenDate }.IsWritten sensitive month ∧
        text = { w with dayName, monthName, zone : WrittenDate }.chars := by
  -- Blanks, commas and colons have no case, so they stand at the same places in both texts.
  have hblank : CaseMode.isCased .ascii ' '.toNat = false := by decide
  have hcolon : CaseMode.isCased .ascii ':'.toNat = false := by decide
  obtain ⟨_, _, hfirst, hafterName, rfl⟩ := exists_of_forall₂_append_cons hblank hlike
  obtain ⟨dayName, _, hdayName, hcomma, rfl⟩ := exists_of_forall₂_append_cons (by decide) hfirst
  obtain rfl := List.forall₂_nil_left_iff.mp hcomma
  obtain ⟨_, _, hday, hafterDay, rfl⟩ := exists_of_forall₂_append_cons hblank hafterName
  obtain ⟨monthName, _, hmonthName, hafterMonth, rfl⟩ :=
    exists_of_forall₂_append_cons hblank hafterDay
  obtain ⟨_, _, hyear, hafterYear, rfl⟩ := exists_of_forall₂_append_cons hblank hafterMonth
  obtain ⟨_, zone, htime, hzone, rfl⟩ := exists_of_forall₂_append_cons hblank hafterYear
  obtain ⟨_, _, hhour, hafterHour, rfl⟩ := exists_of_forall₂_append_cons hcolon htime
  obtain ⟨_, _, hminute, hsecond, rfl⟩ := exists_of_forall₂_append_cons hcolon hafterHour
  -- The texts of digits are the same, and the others are written in another case.
  obtain rfl := eq_of_forall₂_of_isDigit h.day.2 hday
  obtain rfl := eq_of_forall₂_of_isDigit h.year.2 hyear
  obtain rfl := eq_of_forall₂_of_isDigit (isDigit_of_mem_twoDigitsBelow h.hour).1 hhour
  obtain rfl := eq_of_forall₂_of_isDigit (isDigit_of_mem_twoDigitsBelow h.minute).1 hminute
  obtain rfl := eq_of_forall₂_of_isDigit (isDigit_of_mem_twoDigitsBelow h.second).1 hsecond
  obtain ⟨day, hday, hsameDay⟩ := h.dayName
  obtain ⟨name, hname, hsameMonth⟩ := h.monthName
  exact ⟨dayName, monthName, zone,
    { h with
      dayName := ⟨day, hday, mem_word_trans hsameDay hdayName⟩
      monthName := ⟨name, hname, mem_word_trans hsameMonth hmonthName⟩
      zone := mem_word_trans h.zone hzone }, rfl⟩

end Template

/-! ## Denotations -/

/-- What a text denotes, it denotes in either case. -/
theorem Denotation.of_forall₂ {type : ParameterType} {text text' : List Char}
    {value : Option Value} (h : Denotation sensitive type text value)
    (hlike : List.Forall₂ (SameLetter sensitive) text text') :
    Denotation sensitive type text' value := by
  have hdigits {digits : List Char} (hdigits : ∀ c ∈ digits, c.isDigit) :
      ∀ c ∈ digits, CaseMode.isCased .ascii c.toNat = false :=
    fun c hc => isCased_of_isDigit (hdigits c hc)
  have hsign {sign : List Char} (hsign : Number.IsSign sign) :
      ∀ c ∈ sign, CaseMode.isCased .ascii c.toNat = false := by
    rcases hsign with rfl | rfl | rfl <;> exact List.all_iff_forall_prop.mp (by decide)
  cases h with
  | integer hsigned hwhole =>
    -- Numerals have no case.
    obtain rfl := eq_of_mem_word hlike
      (List.forall_mem_append.mpr ⟨hsign hsigned, hdigits hwhole.2⟩)
    exact .integer hsigned hwhole
  | @number _ _ fraction hsigned hwhole hfraction =>
    have hpoint : ∀ c ∈ Number.pointChars fraction, CaseMode.isCased .ascii c.toNat = false := by
      rw [Number.pointChars]
      split
      · exact List.forall_mem_nil _
      · exact List.forall_mem_cons.mpr ⟨by decide, hdigits hfraction⟩
    obtain rfl := eq_of_mem_word hlike (List.forall_mem_append.mpr
      ⟨hsign hsigned, List.forall_mem_append.mpr ⟨hdigits hwhole.2, hpoint⟩⟩)
    exact .number hsigned hwhole hfraction
  | boolean htext => exact .boolean (by rw [map_toLower_of_mem_word hlike, htext])
  | date hw =>
    obtain ⟨_, _, _, hw', rfl⟩ := hw.exists_of_forall₂ hlike
    exact .date hw'

/-! ## Values -/

/-- The same value, or texts that are the same up to the case of ASCII letters unless case
counts. -/
inductive Value.Like (sensitive : Bool) : Value → Value → Prop
  | refl (v : Value) : Like sensitive v v
  | text {s t : String} (h : IsLike sensitive s t) : Like sensitive (.text s) (.text t)

/-- Two values are converted to values that are alike. -/
def Value.ConvertAlike (sensitive : Bool) (type : ParameterType) (v v' : Value) : Prop :=
  ∃ w w', v.convertTo type = .ok w ∧ v'.convertTo type = .ok w' ∧ Like sensitive w w'

/-- Captures of different case become values that are alike, unless one of them is no
percent-encoding. -/
theorem Definition.rel_decodeGroup {definition : Definition Value} {expand : Bool}
    {lead : Option Char} (henum : definition.constraints.enum = none) {group group' : Option String}
    (hgroup : ∀ text ∈ group, text.toList ∈ captureLanguage sensitive definition expand lead)
    (hlike : Option.Rel (IsLike sensitive) group group') :
    Except.Rel (FaultLike sensitive) (Value.ConvertAlike sensitive definition.type)
      (decodeGroup group) (decodeGroup group') := by
  cases hlike with
  | none => exact .ok ⟨.null, .null, rfl, rfl, .refl _⟩
  | @some text text' hlike =>
    rw [decodeGroup, decodeGroup]
    by_cases htype : definition.type = .string
    · rw [htype]
      exact (rel_decodeText hlike).map fun s t hst => ⟨_, _, rfl, rfl, .text hst⟩
    · -- Nothing in a text of another type is encoded.
      have htext := hgroup text rfl
      obtain ⟨value, hvalue⟩ := exists_denotation_of_mem_captureLanguage henum htype htext
      have hpercent : '%' ∉ text.toList :=
        notMem_of_mem_captureLanguage (by decide) (by decide) (by decide) henum htype htext
      rw [decodeText_of_percent_notMem hpercent,
        decodeText_of_percent_notMem (percent_notMem_of_mem_word hlike hpercent)]
      -- Both texts denote one value; when it is missing, they are left as they are.
      refine .ok ⟨_, _, hvalue.convertTo_eq, (hvalue.of_forall₂ hlike).convertTo_eq, ?_⟩
      cases value with
      | none => exact .text hlike
      | some v => exact .refl v

/-- Values that are alike under the same names, each of which has a definition. -/
def Params.Like (sensitive : Bool) (definitions : Definitions) (params params' : Params) : Prop :=
  Fields.Rel (fun name v v' => (definitions.get? name).isSome ∧ Value.Like sensitive v v') params
    params'

/-! ## Verdicts -/

/-- The definition has neither an enumeration nor a pattern, so nothing in it compares letters. -/
def Definition.IsCaseless (definition : Definition Value) : Prop :=
  definition.constraints.enum = none ∧ definition.constraints.pattern = none

theorem Template.IsLike.length_eq {s t : String} (h : IsLike sensitive s t) :
    s.length = t.length :=
  List.Forall₂.length_eq h

/-- Values that are alike break the same rules. -/
theorem Definition.IsCaseless.rulesBrokenBy_congr {definition : Definition Value}
    (h : definition.IsCaseless) {v v' : Value} (hlike : Value.Like sensitive v v') :
    definition.rulesBrokenBy v = definition.rulesBrokenBy v' := by
  cases hlike with
  | refl => rfl
  | @text s t hlike =>
    obtain ⟨henum, hpattern⟩ := h
    have htype : hasType definition.type (.text s) = hasType definition.type (.text t) := by
      cases definition.type <;> rfl
    -- Of the constraints, only the length is left.
    have htext : checkText definition.constraints s = checkText definition.constraints t := by
      rw [checkText, checkText, hpattern, hlike.length_eq]
      rfl
    have hconstraints : checkConstraints definition.constraints (.text s) =
        checkConstraints definition.constraints (.text t) := by
      simp only [checkConstraints, Value.text?, htext, henum]
      rfl
    rw [rulesBrokenBy, rulesBrokenBy, htype, hconstraints]
    rfl

/-- Values that are alike, under the same names, have the same verdict. -/
theorem Verdict.ofParams_congr {definitions : Definitions} {params params' : Params}
    (hcaseless : ∀ name definition, definitions.get? name = some definition →
      definition.IsCaseless)
    (hlike : Params.Like sensitive definitions params params') :
    ofParams params definitions = ofParams params' definitions := by
  have hcollect : collectErrors definitions params = collectErrors definitions params' := by
    induction hlike with
    | nil => rfl
    | cons name hv _ ih =>
      obtain ⟨hdefined, hv⟩ := hv
      obtain ⟨definition, hdefinition⟩ := Option.isSome_iff_exists.mp hdefined
      rw [collectErrors, collectErrors, ih, hdefinition]
      dsimp only
      rw [Definition.rulesNamedBy, Definition.rulesNamedBy,
        (hcaseless name definition hdefinition).rulesBrokenBy_congr hv]
  rw [ofParams, ofParams, hcollect]

end RouteTemplate
