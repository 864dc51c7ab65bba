/-
# What the texts of a type denote

A reference of a type other than string takes texts of one form: a sign and digits, with a fraction
for numbers, a truth value, or a date. Each of them denotes a value of the type, with two
exceptions: an integer of too many digits, and a date that is no day of the calendar. Nothing in it
is percent-encoded, and conversion gives the value, or leaves the text as it is when it denotes
none. The type of the parameter is then found broken for the two exceptions alone, and for a number
that overflows.

## Main definitions

* `Denotation` — a text of the form of a type, with the value that it denotes

## Main results

* `exists_denotation_of_mem_captureLanguage` — what a reference takes has the form of its type
* `Denotation.convertTo_eq` — conversion gives the value that is denoted
* `Denotation.hasType_getD` — when the result is of the type
* `Definition.rulesBrokenBy_of_not_hasType`, `Definition.type_notMem_rulesBrokenBy` — when the type
  is broken
* `Compiled.exists_denotation` — the texts that a path is taken apart into
-/

import RouteTemplate.Proofs.Checking.Admission
import RouteTemplate.Proofs.Matching.Refusal
import RouteTemplate.Proofs.Template.WrittenDate
import RouteTemplate.Proofs.Text.PercentDecoding

namespace RouteTemplate

open Number (IsSign signed pointChars Decimal Binary64)
open Template (captureLanguage declaredLanguage decodeText WrittenDate)

/-- A text of the form that a type has in a path, and the value that it denotes, if any. Integers
have at most 4300 digits, and dates are days of the calendar. -/
inductive Denotation (sensitive : Bool) : ParameterType → List Char → Option Value → Prop
  | integer {sign digits : List Char} (hsign : IsSign sign) (hdigits : digits ∈ Template.digits) :
      Denotation sensitive .integer (sign ++ digits)
        (if digits.length ≤ 4300 then some (.int (signed sign digits)) else none)
  | number {sign whole fraction : List Char} (hsign : IsSign sign)
      (hwhole : whole ∈ Template.digits) (hfraction : ∀ c ∈ fraction, c.isDigit) :
      Denotation sensitive .number (sign ++ (whole ++ pointChars fraction))
        (some (.float (Decimal.toBinary (sign = ['-'])
          ⟨Nat.ofDigitChars 10 (whole ++ fraction) 0, -(fraction.length : Int)⟩)))
  | boolean {b : Bool} {text : List Char}
      (htext : String.ofList (text.map Char.toLower) = toString b) :
      Denotation sensitive .boolean text (some (.bool b))
  | date {w : WrittenDate} {month : Nat} (h : w.IsWritten sensitive month) :
      Denotation sensitive .date w.chars
        (if w.NamesDay month then some (.date (w.dateTime month)) else none)

/-- What is denoted is nothing of the type: no value at all, or a number that overflows. -/
def IsMissing (value : Option Value) : Prop :=
  value = none ∨ ∃ negative, value = some (.float (.infinite negative))

variable {sensitive : Bool} {type : ParameterType} {definition : Definition Value}

/-- What a reference without an enumeration takes has the form of its type, unless that is
string. -/
theorem exists_denotation_of_mem_captureLanguage {expand : Bool} {lead : Option Char}
    (henum : definition.constraints.enum = none) (htype : definition.type ≠ .string)
    {text : List Char} (h : text ∈ captureLanguage sensitive definition expand lead) :
    ∃ value, Denotation sensitive definition.type text value := by
  simp only [captureLanguage, declaredLanguage, henum] at h
  cases hkind : definition.type with
  | string => exact absurd hkind htype
  | integer =>
    rw [hkind] at h
    obtain ⟨sign, hsign, digits, hdigits, rfl⟩ := Language.mem_mul.mp h
    exact ⟨_, .integer hsign hdigits⟩
  | number =>
    rw [hkind] at h
    obtain ⟨_, ⟨sign, hsign, whole, hwhole, rfl⟩, rest, hrest, rfl⟩ := Language.mem_mul.mp h
    have hfraction : ∃ fraction : List Char, (∀ c ∈ fraction, c.isDigit) ∧
        rest = pointChars fraction := by
      rcases hrest with hnil | ⟨point, hpoint, fraction, hfraction, rfl⟩
      · exact ⟨[], by simp, hnil⟩
      · obtain rfl := Template.eq_of_mem_word hpoint (List.forall_mem_singleton.mpr (by decide))
        exact ⟨fraction, hfraction.2, by rw [pointChars, if_neg hfraction.1]; rfl⟩
    obtain ⟨fraction, hfraction, rfl⟩ := hfraction
    rw [List.append_assoc]
    exact ⟨_, .number hsign hwhole hfraction⟩
  | boolean =>
    rw [hkind] at h
    obtain ⟨w, hw, htext⟩ := h
    have hspelled : ∃ b : Bool, String.ofList (w.toList.map Char.toLower) = toString b := by
      rcases List.mem_cons.mp hw with rfl | hw
      · exact ⟨true, by decide⟩
      · obtain rfl := List.mem_singleton.mp hw
        exact ⟨false, by decide⟩
    obtain ⟨b, hb⟩ := hspelled
    exact ⟨_, .boolean (b := b) (by rw [Template.map_toLower_of_mem_word htext, hb])⟩
  | date =>
    rw [hkind] at h
    obtain ⟨w, month, hw, rfl⟩ := Template.exists_writtenDate h
    exact ⟨_, .date hw⟩

namespace Denotation

variable {text : List Char} {value : Option Value}

/-- The reader of a type reads what a text of its form denotes. -/
theorem readText_eq (h : Denotation sensitive type text value) :
    readText type text = .ok value := by
  cases h with
  | integer hsign hdigits =>
    rw [readText, Number.readInteger?_signed hsign hdigits.2 hdigits.1, apply_ite (Option.map _)]
    rfl
  | number hsign hwhole hfraction =>
    rw [readText, Number.readBinary?_signed hsign hwhole.2 hwhole.1 hfraction]
    rfl
  | @boolean b _ htext =>
    rw [readText, readBoolean?, htext]
    cases b <;> rfl
  | date hw =>
    simp only [readText, hw.read_chars]
    rw [apply_ite (Option.map _)]
    rfl

/-- Conversion gives the value that a text denotes, and leaves a text that denotes none. -/
theorem convertTo_eq {text : String} (h : Denotation sensitive type text.toList value) :
    (Value.text text).convertTo type = .ok (value.getD (.text text)) := by
  rw [Value.convertTo, h.readText_eq]
  rfl

/-- The result is of the type, unless the text denotes no value or a number that overflows. -/
theorem hasType_getD {text : String} (h : Denotation sensitive type text.toList value) :
    ∃ ofType, hasType type (value.getD (.text text)) = .ok ofType ∧
      (ofType = false ↔ IsMissing value) := by
  rw [IsMissing]
  generalize text.toList = chars at h
  cases h with
  | @integer sign digits =>
    by_cases hshort : digits.length ≤ 4300
    · rw [if_pos hshort]
      exact ⟨true, rfl, by simp⟩
    · rw [if_neg hshort]
      exact ⟨false, rfl, by simp⟩
  | number =>
    refine ⟨_, rfl, ?_⟩
    simpa using Decimal.isFinite_toBinary_eq_false_iff
  | boolean => exact ⟨true, rfl, by simp⟩
  | @date w month =>
    by_cases hday : w.NamesDay month
    · rw [if_pos hday]
      exact ⟨true, rfl, by simp⟩
    · rw [if_neg hday]
      exact ⟨false, rfl, by simp⟩

theorem isNull_getD {text : String} (h : Denotation sensitive type text.toList value) :
    (value.getD (.text text)).isNull = false := by
  generalize text.toList = chars at h
  cases h with
  | integer => split <;> rfl
  | date => split <;> rfl
  | _ => rfl

end Denotation

/-! ## Checking the type -/

variable {v : Value} {rules : List Rule}

/-- A value that is not of the type breaks that rule alone. -/
theorem Definition.rulesBrokenBy_of_not_hasType (hnull : v.isNull = false)
    (h : hasType definition.type v = .ok false) : definition.rulesBrokenBy v = .ok [.type] := by
  rw [rulesBrokenBy, hnull, h]
  rfl

theorem eq_of_mem_broken {rule : Rule} {constraint : Option Value}
    {test : Value → Except Fault Bool} (h : broken rule constraint test = .ok rules) :
    ∀ r ∈ rules, r = rule := by
  cases constraint with
  | none =>
    obtain rfl := Except.ok.inj h
    exact List.forall_mem_nil _
  | some bound =>
    obtain ⟨isBroken, -, h⟩ := Except.bind_eq_ok_iff.mp h
    obtain rfl := Except.ok.inj h
    split <;> simp

/-- The constraints have nothing to say about the type. -/
theorem type_notMem_checkConstraints {constraints : Constraints Value}
    (h : checkConstraints constraints v = .ok rules) : Rule.type ∉ rules := by
  have hbroken {rule : Rule} {constraint : Option Value} {test : Value → Except Fault Bool}
      {rules : List Rule} (h : broken rule constraint test = .ok rules) (hne : rule ≠ .type) :
      Rule.type ∉ rules := fun hmem => hne (eq_of_mem_broken h .type hmem).symm
  have htext {text : String} {rules : List Rule} (h : checkText constraints text = .ok rules) :
      Rule.type ∉ rules := by
    obtain ⟨short, hshort, h⟩ := Except.bind_eq_ok_iff.mp h
    obtain ⟨long, hlong, h⟩ := Except.bind_eq_ok_iff.mp h
    obtain ⟨unlike, hunlike, h⟩ := Except.bind_eq_ok_iff.mp h
    obtain rfl := Except.ok.inj h
    simp [hbroken hshort, hbroken hlong, hbroken hunlike]
  have hnumber {rules : List Rule} (h : checkNumber constraints v = .ok rules) :
      Rule.type ∉ rules := by
    obtain ⟨finite, -, h⟩ := Except.bind_eq_ok_iff.mp h
    split at h
    · obtain ⟨small, hsmall, h⟩ := Except.bind_eq_ok_iff.mp h
      obtain ⟨large, hlarge, h⟩ := Except.bind_eq_ok_iff.mp h
      obtain rfl := Except.ok.inj h
      simp [hbroken hsmall, hbroken hlarge]
    · obtain rfl := Except.ok.inj h
      exact List.not_mem_nil
  rw [checkConstraints_eq] at h
  obtain ⟨onText, hchecked, h⟩ := Except.bind_eq_ok_iff.mp h
  obtain ⟨onNumber, hnumbers, h⟩ := Except.bind_eq_ok_iff.mp h
  obtain rfl := Except.ok.inj h
  simp only [List.mem_append, not_or]
  refine ⟨⟨?_, hnumber hnumbers⟩, ?_⟩
  · cases hkind : v.text? with
    | none =>
      rw [hkind] at hchecked
      obtain rfl := Except.ok.inj hchecked
      exact List.not_mem_nil
    | some text =>
      rw [hkind] at hchecked
      exact htext hchecked
  · cases constraints.enum with
    | none => exact List.not_mem_nil
    | some members =>
      rw [Option.elim_some]
      split <;> simp

/-- A value that is of the type does not break that rule. -/
theorem Definition.type_notMem_rulesBrokenBy (h : hasType definition.type v = .ok true)
    (hrules : definition.rulesBrokenBy v = .ok rules) : Rule.type ∉ rules := by
  rw [rulesBrokenBy, h] at hrules
  split at hrules
  · obtain rfl := Except.ok.inj hrules
    split <;> simp
  · exact type_notMem_checkConstraints hrules

/-! ## Captures -/

/-- What a path gives to a reference of a type other than string and without an enumeration has the
form of the type. It is not encoded, and conversion gives the value that it denotes, or leaves it
when it denotes none. The type is found broken exactly when it denotes none or a number that
overflows. -/
theorem Compiled.exists_denotation {template : String} {declarations : Declarations}
    {options : Options} {compiled : Compiled}
    (h : (Compiled.ofTemplate template declarations options).outcome = .ok compiled)
    {pattern : Pattern} (hpattern : compiled.pattern = some pattern) {path : String} {found : Found}
    (hfound : pattern.find? compiled.slots.length path = some found) {slot : Slot} {text : String}
    (hmem : (slot, some text) ∈ compiled.slots.zip found.groups)
    (hdefinition : compiled.definitions.get? slot.name = some definition)
    (henum : definition.constraints.enum = none) (htype : definition.type ≠ .string) :
    ∃ value, Denotation options.sensitive definition.type text.toList value ∧
      decodeText text = .ok text ∧
      (Value.text text).convertTo definition.type = .ok (value.getD (.text text)) ∧
      (IsMissing value → definition.rulesBrokenBy (value.getD (.text text)) = .ok [.type]) ∧
      (¬ IsMissing value → ∀ rules,
        definition.rulesBrokenBy (value.getD (.text text)) = .ok rules → Rule.type ∉ rules) := by
  obtain ⟨definition', expand, lead, hget, hlanguage⟩ :=
    Compiled.exists_definition h hpattern hfound hmem
  obtain rfl := Option.some.inj (hget.symm.trans hdefinition)
  have htext := hlanguage text rfl
  obtain ⟨value, hvalue⟩ := exists_denotation_of_mem_captureLanguage henum htype htext
  obtain ⟨ofType, hofType, hmissing⟩ := hvalue.hasType_getD
  have hpercent : '%' ∉ text.toList :=
    Template.notMem_of_mem_captureLanguage (by decide) (by decide) (by decide) henum htype htext
  refine ⟨value, hvalue, Template.decodeText_of_percent_notMem hpercent, hvalue.convertTo_eq,
    fun hnone => ?_, fun hsome rules hrules => ?_⟩
  · obtain rfl := hmissing.mpr hnone
    exact Definition.rulesBrokenBy_of_not_hasType hvalue.isNull_getD hofType
  · obtain rfl := Bool.not_eq_false _ ▸ mt hmissing.mp hsome
    exact Definition.type_notMem_rulesBrokenBy hofType hrules

/-- The year 1900 had no 29th of February, so the text of the path stays a text and breaks its
type. -/
theorem Compiled.exists_denotation_of_impossible_day :
    ∃ compiled definition, (Compiled.ofTemplate "/{d}" [("d", .mapping [("type", .text "date")])]
        .standard).outcome = .ok compiled ∧ compiled.definitions.get? "d" = some definition ∧
      (∃ value, Denotation false .date "Thu, 29 Feb 1900 08:49:37 gmt".toList value ∧
        value.getD (.text "Thu, 29 Feb 1900 08:49:37 gmt") =
          .text "Thu, 29 Feb 1900 08:49:37 gmt") ∧
      decodeText "Thu, 29 Feb 1900 08:49:37 gmt" = .ok "Thu, 29 Feb 1900 08:49:37 gmt" ∧
      definition.rulesBrokenBy (.text "Thu, 29 Feb 1900 08:49:37 gmt") = .ok [.type] := by
  have hcaptured : ∃ compiled pattern found definition,
      (Compiled.ofTemplate "/{d}" [("d", .mapping [("type", .text "date")])] .standard).outcome =
        .ok compiled ∧ compiled.pattern = some pattern ∧
      pattern.find? compiled.slots.length "/Thu, 29 Feb 1900 08:49:37 gmt" = some found ∧
      (⟨"d", '/', false⟩, some "Thu, 29 Feb 1900 08:49:37 gmt") ∈ compiled.slots.zip found.groups ∧
      compiled.definitions.get? "d" = some definition ∧
      definition = ⟨"d", .date, true, .none⟩ :=
    ⟨_, _, _, _, rfl, rfl, rfl, List.mem_singleton.mpr rfl, rfl, rfl⟩
  obtain ⟨compiled, pattern, found, definition, h, hpattern, hfound, hmem, hdefinition, rfl⟩ :=
    hcaptured
  obtain ⟨value, hvalue, hdecode, hconvert, -⟩ :=
    Compiled.exists_denotation h hpattern hfound hmem hdefinition rfl (by simp)
  have hkept : (Value.text "Thu, 29 Feb 1900 08:49:37 gmt").convertTo .date =
      .ok (.text "Thu, 29 Feb 1900 08:49:37 gmt") := rfl
  exact ⟨compiled, _, h, hdefinition, ⟨value, hvalue, Except.ok.inj (hconvert.symm.trans hkept)⟩,
    hdecode, rfl⟩

end RouteTemplate
