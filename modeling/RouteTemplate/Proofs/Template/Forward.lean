/-
# The expressions of a template read forward

Neither the letters of a template nor its references put conditions on the position, so the parts of
a route do to the beginning of a path what they do to the path. Only the end of the route asks where
the path ends.

## Main results

* `readsForward_captureRegex` — what a reference captures
* `readsForward_partRegexes` — the parts of a route
-/

import RouteTemplate.Proofs.Regex.Extending
import RouteTemplate.Template.Route

namespace RouteTemplate.Template

open RouteTemplate.Regex (ReadsForward)

variable (mode : Regex.CaseMode)

private theorem readsForward_charRegexes (text : List Char) :
    ∀ r ∈ charRegexes mode text, ReadsForward r.outcomes := by
  intro r hr
  obtain ⟨c, -, rfl⟩ := List.mem_map.mp hr
  exact Regex.readsForward_one _

private theorem readsForward_wordsRegex (words : List String) :
    ReadsForward (wordsRegex mode words).outcomes := by
  refine ReadsForward.choice ?_
  intro r hr
  obtain ⟨w, -, rfl⟩ := List.mem_map.mp hr
  exact ReadsForward.sequence (readsForward_charRegexes mode w.toList)

private theorem readsForward_optional {r : Regex} (h : ReadsForward r.outcomes) :
    ReadsForward (optional r).outcomes :=
  h.repetition (by simp) 0 (some 1)

private theorem readsForward_numerals :
    ReadsForward (integerRegex mode).outcomes ∧ ReadsForward (numberRegex mode).outcomes := by
  have hsign : ReadsForward (signRegex mode).outcomes :=
    readsForward_optional (Regex.readsForward_one _)
  have hdigits : ReadsForward (digitsRegex mode).outcomes :=
    (Regex.readsForward_one _).repetition (by simp) 1 none
  have hpoint : ReadsForward (charRegex mode '.').outcomes := Regex.readsForward_one _
  exact ⟨hsign.seq hdigits, hsign.seq (hdigits.seq (readsForward_optional (hpoint.seq hdigits)))⟩

private theorem readsForward_dateRegex : ReadsForward (dateRegex mode).outcomes := by
  have hone {cls : Regex.CharClass} : ReadsForward (Regex.one cls).outcomes :=
    Regex.readsForward_one cls
  have hcount (count : Nat) : ReadsForward (digitsOfLength mode count).outcomes :=
    hone.repetition (by simp) count (some count)
  have hhour : ReadsForward (hourRegex mode).outcomes := (hone.seq hone).alt (hone.seq hone)
  refine ReadsForward.sequence ?_
  intro r hr
  simp only [sixtieths, List.mem_append, List.mem_cons, List.not_mem_nil, or_false] at hr
  rcases hr with ((hr | hr) | hr) | hr
  · rcases hr with rfl | rfl | rfl | rfl | rfl | rfl | rfl | rfl | rfl | rfl
    all_goals first
      | exact hone
      | exact hcount _
      | exact readsForward_wordsRegex mode _
      | exact hhour
  · rcases hr with rfl | rfl | rfl <;> exact hone
  · rcases hr with rfl | rfl | rfl <;> exact hone
  · exact readsForward_charRegexes mode _ r hr

theorem readsForward_captureRegex (definition : Definition Value) (expand : Bool)
    (separator : Char) :
    ReadsForward (captureRegex mode definition expand separator).outcomes := by
  rw [captureRegex]
  cases definition.constraints.enum with
  | some members => exact readsForward_wordsRegex mode _
  | none =>
    cases definition.type with
    | string =>
      cases expand with
      | true => exact (Regex.readsForward_one _).repetition (by simp) 1 none
      | false => exact (Regex.readsForward_one _).repetition (by simp) 1 none
    | number => exact (readsForward_numerals mode).2
    | integer => exact (readsForward_numerals mode).1
    | boolean => exact readsForward_wordsRegex mode _
    | date => exact readsForward_dateRegex mode

/-- The expressions of parts read forward. -/
theorem readsForward_partRegexes (number : Nat) (parts : List Part) :
    ∀ r ∈ Route.partRegexes mode number parts, ReadsForward r.outcomes := by
  induction parts generalizing number with
  | nil =>
    intro r hr
    exact absurd hr List.not_mem_nil
  | cons part parts ih =>
    cases part with
    | special c => exact List.forall_mem_cons.mpr ⟨Regex.readsForward_one _, ih number⟩
    | plain c => exact List.forall_mem_cons.mpr ⟨Regex.readsForward_one _, ih number⟩
    | reference lead expand definition =>
      have hitems : ∀ r ∈ charRegexes mode lead.toList ++
          [.group number (captureRegex mode definition expand (lead.getD '/'))],
          ReadsForward r.outcomes := by
        intro r hr
        rcases List.mem_append.mp hr with hr | hr
        · exact readsForward_charRegexes mode lead.toList r hr
        · rw [List.mem_singleton.mp hr]
          exact (readsForward_captureRegex mode definition expand _).group number
      intro r hr
      rw [Route.partRegexes] at hr
      rcases List.mem_append.mp hr with hr | hr
      · split at hr
        · exact hitems r hr
        · rw [List.mem_singleton.mp hr]
          exact readsForward_optional (ReadsForward.sequence hitems)
      · exact ih (number + 1) r hr

end RouteTemplate.Template
