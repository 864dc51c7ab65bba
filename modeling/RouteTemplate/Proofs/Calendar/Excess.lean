/-
# Numbers beyond the calendar

A date of a mail header may name numbers of any size. Most of those that no calendar holds are
refused, but a zone whose distance exceeds every duration, and a field that fits no word of 32 bits,
make reading fail. A zone that is a day or more away is refused before the fields are looked at.

## Main definitions

* `Numbers.AreTooLarge` — numbers at which reading fails

## Main results

* `Numbers.exists_toDateTime_eq_error_iff` — reading fails exactly at those numbers
* `isValid_of_read` — a date that is read is a day of the calendar
-/

import RouteTemplate.Calendar.MailDate
import RouteTemplate.Proofs.Except

namespace RouteTemplate.Calendar.MailDate

/-- The fields that count days or parts of a day, and the year. The month is named by a word. -/
def Numbers.fields (n : Numbers) : List Int :=
  [n.year, n.day, n.hour, n.minute, n.second]

/-- The offset is longer than the greatest duration, a billion days less one. -/
def ExceedsDuration (offset : Int) : Prop :=
  999999999 < (offset / 86400).natAbs

/-- The field does not fit a word of 32 bits. -/
def ExceedsWord (field : Int) : Prop :=
  field < -2147483648 ∨ 2147483647 < field

/-- The numbers are so large that reading them fails: the offset exceeds the greatest duration or,
when it is shorter than a day or unknown, a field exceeds a word. -/
def Numbers.AreTooLarge (n : Numbers) : Prop :=
  (∃ offset ∈ n.offset, ExceedsDuration offset) ∨
    ((∀ offset ∈ n.offset, offset.natAbs < 86400) ∧ ∃ field ∈ n.fields, ExceedsWord field)

theorem exists_checkOffset_eq_error_iff {offset : Int} :
    (∃ cause, checkOffset offset = .error cause) ↔ ExceedsDuration offset := by
  rw [ExceedsDuration, checkOffset]
  split
  · rename_i hword
    simp only [Bool.or_eq_true, decide_eq_true_eq] at hword
    exact iff_of_true ⟨_, rfl⟩ (by omega)
  · split
    · rename_i hduration
      exact iff_of_true ⟨_, rfl⟩ hduration
    · rename_i hduration
      exact iff_of_false (by simp) hduration

theorem exists_checkField_eq_error_iff {field : Int} :
    (∃ cause, checkField field = .error cause) ↔ ExceedsWord field := by
  rw [ExceedsWord, checkField]
  split
  · rename_i hword
    simp only [Bool.or_eq_true, decide_eq_true_eq] at hword
    exact iff_of_true ⟨_, rfl⟩ (by omega)
  · split
    · exact iff_of_true ⟨_, rfl⟩ (by omega)
    · split
      · exact iff_of_true ⟨_, rfl⟩ (by omega)
      · exact iff_of_false (by simp) (by omega)

/-- One field after another is looked at, and the first that is too large ends it. -/
theorem exists_forM_checkField_eq_error_iff {fields : List Int} :
    (∃ cause, fields.forM checkField = .error cause) ↔ ∃ field ∈ fields, ExceedsWord field := by
  induction fields with
  | nil => simp [List.forM, pure, Except.pure]
  | cons field fields ih =>
    simp only [List.forM_eq_forM, List.forM_cons] at ih ⊢
    simp only [Except.bind_eq_error_iff, exists_or, List.mem_cons, exists_eq_or_imp,
      exists_checkField_eq_error_iff]
    cases hfield : checkField field with
    | error cause =>
      have hexceeds := exists_checkField_eq_error_iff.mp ⟨cause, hfield⟩
      exact iff_of_true (.inl hexceeds) (.inl hexceeds)
    | ok u => simpa using or_congr_right ih

/-- The numbers make reading fail exactly when they are too large. -/
theorem Numbers.exists_toDateTime_eq_error_iff {n : Numbers} :
    (∃ cause, n.toDateTime = .error cause) ↔ n.AreTooLarge := by
  have hoffset : (∃ cause, n.offset.forM checkOffset = .error cause) ↔
      ∃ offset ∈ n.offset, ExceedsDuration offset := by
    cases n.offset with
    | none => simp [Option.forM, pure, Except.pure]
    | some offset => simpa using exists_checkOffset_eq_error_iff
  have hday : (n.offset.any fun offset => decide (86400 ≤ offset.natAbs)) = false ↔
      ∀ offset ∈ n.offset, offset.natAbs < 86400 := by
    cases n.offset <;> simp
  rw [AreTooLarge, ← hoffset, ← hday, ← exists_forM_checkField_eq_error_iff, toDateTime]
  cases hforM : n.offset.forM checkOffset with
  | error cause => exact iff_of_true ⟨cause, rfl⟩ (.inl ⟨cause, rfl⟩)
  | ok u =>
    cases hany : n.offset.any fun offset => decide (86400 ≤ offset.natAbs) with
    | true => simp [bind, Except.bind, pure, Except.pure]
    | false =>
      cases hfields : n.fields.forM checkField with
      | error cause =>
        rw [fields] at hfields
        refine iff_of_true ⟨cause, ?_⟩ (.inr ⟨rfl, cause, rfl⟩)
        rw [hfields]
        rfl
      | ok u =>
        rw [fields] at hfields
        refine iff_of_false ?_ (by simp)
        rw [hfields]
        simp only [bind, Except.bind, pure, Except.pure, Bool.false_eq_true, ↓reduceIte]
        split <;> simp

/-- A date that numbers name is a day of the calendar. -/
theorem isValid_of_toDateTime {n : Numbers} {date : DateTime}
    (h : n.toDateTime = .ok (some date)) : date.isValid = true := by
  simp only [Numbers.toDateTime, Except.bind_eq_ok_iff] at h
  obtain ⟨_, -, h⟩ := h
  split at h
  · exact absurd h (by simp [pure, Except.pure])
  · obtain ⟨_, -, h⟩ := Except.bind_eq_ok_iff.mp h
    split at h
    · exact absurd h (by simp [pure, Except.pure])
    · have hdate := Except.ok.inj h
      split at hdate
      · rename_i hvalid
        obtain rfl := Option.some.inj hdate
        exact hvalid
      · exact absurd hdate (by simp)

/-- A date that is read is a day of the calendar. -/
theorem isValid_of_read {text : List Char} {date : DateTime} (h : read text = .ok (some date)) :
    date.isValid = true := by
  rw [read] at h
  split at h
  · exact isValid_of_toDateTime h
  · exact absurd h (by simp)

/-- Reading a text fails exactly when it names numbers that are too large. -/
theorem exists_read_eq_error_iff {text : List Char} :
    (∃ cause, read text = .error cause) ↔ ∃ n, fields? text = some n ∧ n.AreTooLarge := by
  rw [read]
  cases hfields : fields? text with
  | none => simp
  | some n => simpa using Numbers.exists_toDateTime_eq_error_iff

end RouteTemplate.Calendar.MailDate
