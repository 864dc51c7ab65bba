/-
# Conversion as far as it goes

Converting a text gives a value of the wanted type or leaves the text as it is. It fails for dates
alone, and only for those that name numbers which no machine word or duration holds: a year of ten
digits is too much, one of nine is just no date.

## Main definitions

* `Value.IsReadAs` — a value of the kind that a type is read as

## Main results

* `Value.convertTo_text_or_fails` — what conversion gives, and exactly when it fails
* `Value.convertTo_year_beyond_word` — a text at which it fails
-/

import RouteTemplate.Checking.Conversion
import RouteTemplate.Proofs.Calendar.Excess

namespace RouteTemplate

open Calendar (MailDate.fields? MailDate.read)

/-- The value is of the kind that a text of the type is read as. A string is left as it is. -/
def Value.IsReadAs (v : Value) : ParameterType → Prop
  | .string => False
  | .number => ∃ x, v = .float x
  | .integer => ∃ n, v = .int n
  | .boolean => ∃ b, v = .bool b
  | .date => ∃ d : Calendar.DateTime, v = .date d ∧ d.isValid

/-- What a text denotes is of the kind of the type. -/
theorem isReadAs_of_readText {type : ParameterType} {text : List Char} {v : Value}
    (h : readText type text = .ok (some v)) : v.IsReadAs type := by
  cases type with
  | string => exact absurd (Except.ok.inj h) (by simp)
  | number =>
    obtain ⟨x, -, rfl⟩ := Option.map_eq_some_iff.mp (Except.ok.inj h)
    exact ⟨x, rfl⟩
  | integer =>
    obtain ⟨n, -, rfl⟩ := Option.map_eq_some_iff.mp (Except.ok.inj h)
    exact ⟨n, rfl⟩
  | boolean =>
    obtain ⟨b, -, rfl⟩ := Option.map_eq_some_iff.mp (Except.ok.inj h)
    exact ⟨b, rfl⟩
  | date =>
    rw [readText] at h
    split at h
    · rename_i date hread
      obtain ⟨d, rfl, rfl⟩ := Option.map_eq_some_iff.mp (Except.ok.inj h)
      exact ⟨d, rfl, Calendar.MailDate.isValid_of_read hread⟩
    · exact absurd h (by simp)

/-- Only reading a date fails. -/
theorem readText_eq_error_iff {type : ParameterType} {text : List Char} {fault : Fault} :
    readText type text = .error fault ↔
      type = .date ∧ ∃ cause, MailDate.read text = .error cause ∧ fault = .dateTooLarge cause := by
  cases type with
  | date =>
    rw [readText]
    cases hread : MailDate.read text with
    | ok date => simp
    | error cause => simp [eq_comm]
  | _ => simp [readText]

/-- Converting a text gives a value of the type or leaves the text as it is. It fails only for a
date, and exactly for one that names numbers which are too large. -/
theorem Value.convertTo_text_or_fails (type : ParameterType) (s : String) :
    (∀ v, (Value.text s).convertTo type = .ok v → v = .text s ∨ v.IsReadAs type) ∧
    ((∃ fault, (Value.text s).convertTo type = .error fault) ↔
      type = .date ∧ ∃ numbers, MailDate.fields? s.toList = some numbers ∧ numbers.AreTooLarge) ∧
    ∀ fault, (Value.text s).convertTo type = .error fault →
      ∃ cause, fault = .dateTooLarge cause := by
  have hconvert : (Value.text s).convertTo type =
      (readText type s.toList).map fun read => read.getD (.text s) := by
    rw [Value.convertTo]
    cases readText type s.toList <;> rfl
  refine ⟨?_, ?_, ?_⟩
  · intro v hv
    rw [hconvert, Except.map_eq_ok_iff] at hv
    obtain ⟨read, hread, rfl⟩ := hv
    cases read with
    | none => exact .inl rfl
    | some w => exact .inr (isReadAs_of_readText hread)
  · simp only [hconvert, Except.map_eq_error_iff, readText_eq_error_iff,
      ← Calendar.MailDate.exists_read_eq_error_iff]
    constructor
    · rintro ⟨_, htype, cause, hread, rfl⟩
      exact ⟨htype, cause, hread⟩
    · rintro ⟨htype, cause, hread⟩
      exact ⟨_, htype, cause, hread, rfl⟩
  · intro fault hfault
    rw [hconvert, Except.map_eq_error_iff, readText_eq_error_iff] at hfault
    obtain ⟨-, cause, -, rfl⟩ := hfault
    exact ⟨cause, rfl⟩

/-- A date whose year fits no word of 32 bits is not left as it is: converting it fails. -/
theorem Value.convertTo_year_beyond_word :
    (Value.text "Sun, 06 Nov 2147483648 08:49:37 GMT").convertTo .date =
      .error (.dateTooLarge .fieldAboveInt) := by
  have hread : MailDate.read "Sun, 06 Nov 2147483648 08:49:37 GMT".toList =
      .error .fieldAboveInt := by rfl
  rw [Value.convertTo, readText, hread]
  rfl

end RouteTemplate
