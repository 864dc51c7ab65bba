/-
# Declarations with further constraints

Constraints beside enumerations decide which matches of a template count, and nothing else. With
them a template has the same pattern and the same slots. A path that fails to be matched fails as it
does without them, and a match is either the same as without them or none.

## Main definitions

* `Declarations.SatisfiedBy` — values satisfy the constraints that apply to their types
* `Declarations.Filters` — a match stays as it is or is dropped
* `Matcher.FilteredBy` — a matcher matches as another one, up to such a filter

## Main results

* `Matcher.filters_match?` — further constraints filter the matches of each path
* `Matcher.rel_ofTemplate_tightened` — a template under declarations with further constraints
-/

import RouteTemplate.Proofs.Checking.Tightening
import RouteTemplate.Proofs.Matching.Caseless
import RouteTemplate.Proofs.Matching.Likeness

namespace RouteTemplate

open Template

/-! ## Filters -/

/-- Each value that is not missing satisfies the constraints that the declarations give to its
parameter and that apply to the type of the parameter. -/
def Declarations.SatisfiedBy (declarations : Declarations) (params : Params) : Prop :=
  ∀ name v, (name, v) ∈ params → v ≠ .null →
    ∃ d, Definition.ofValue name (declarations.describe name) = .ok d ∧
      d.constraints.HoldFor d.type v

/-- A match stays as it is when its values satisfy the constraints, and is dropped when they do not.
There is no match where there was none. -/
inductive Declarations.Filters (declarations : Declarations) :
    Option Match → Option Match → Prop
  | unmatched : Filters declarations none none
  | kept {result : Match} (h : declarations.SatisfiedBy result.params) :
      Filters declarations (some result) (some result)
  | dropped {result : Match} (h : ¬ declarations.SatisfiedBy result.params) :
      Filters declarations (some result) none

/-- The second matcher has the pattern and the slots of the first one. On every path it fails as the
first one does, or has the match of the first one when the constraints of the declarations let it
through, in either way of matching. -/
structure Matcher.FilteredBy (declarations : Declarations) (m m' : Matcher) : Prop where
  pattern_eq : m.compiled.pattern = m'.compiled.pattern
  slots_eq : m.compiled.slots = m'.compiled.slots
  inTurn (path : String) :
    Except.Rel Eq declarations.Filters (m.match? path).outcome (m'.match? path).outcome
  concurrently (path : String) (group : TaskGroup) :
    Except.Rel Eq declarations.Filters (m.matchConcurrently? path group).outcome
      (m'.matchConcurrently? path group).outcome

/-! ## Values of a path -/

section Values

variable {template : String} {declarations : Declarations} {options : Options}
  {compiled : Compiled} {params : Params}

/-- The definitions of a compiled template have the constraints that the declarations give to its
slots. -/
theorem Declarations.satisfiedBy_iff
    (h : (Compiled.ofTemplate template declarations options).outcome = .ok compiled)
    (hslots : ∀ name v, (name, v) ∈ params → ∃ slot ∈ compiled.slots, slot.name = name) :
    declarations.SatisfiedBy params ↔ params.Satisfy compiled.definitions := by
  refine forall_congr' fun name => forall_congr' fun v => forall_congr' fun hmem =>
    imp_congr_right fun _ => ?_
  obtain ⟨slot, hslot, rfl⟩ := hslots name v hmem
  obtain ⟨definition, hget, hdefinition⟩ := Compiled.exists_definition_of_mem_slots h hslot
  rw [hget, hdefinition]
  simp

/-- Values of a path stand under names of slots. -/
theorem Matcher.exists_slot_of_takeApart {m : Matcher} (hm : m.collaborators = .standard)
    {path matched : String} (h : (m.takeApart path).outcome = .ok (some (matched, params)))
    {name : String} {v : Value} (hmem : (name, v) ∈ params) :
    ∃ slot ∈ m.compiled.slots, slot.name = name := by
  rcases exists_of_takeApart h with ⟨-, -, rfl⟩ | ⟨_, found, captured, -, -, hcapture, hsanitize, -⟩
  · exact absurd hmem List.not_mem_nil
  · rw [hm] at hsanitize
    obtain ⟨captured, hmem, -⟩ := exists_of_mem_convert hsanitize hmem
    obtain ⟨slot, group, hzip, hname, -⟩ := exists_of_mem_captureParams hcapture hmem
    exact ⟨slot, (List.of_mem_zip hzip).1, hname⟩

end Values

/-! ## Matches -/

namespace Matcher

variable {m m' : Matcher}

/-- Further constraints filter the matches of every path. -/
theorem filters_match? (hm : m.collaborators = .standard) (hm' : m'.collaborators = .standard)
    (hcompiled : (Compiled.ofTemplate m'.template m'.declarations m'.options).outcome =
      .ok m'.compiled)
    (h : m.compiled.Related Definition.TightenedTo m'.compiled) (path : String) :
    Except.Rel Eq m'.declarations.Filters (m.match? path).outcome (m'.match? path).outcome := by
  have htakes := outcome_takeApart_congr hm hm' (fun _ _ hde => hde.type_eq) h path
  rw [outcome_match?_of_standard hm, outcome_match?_of_standard hm', htakes]
  cases htake : (m'.takeApart path).outcome with
  | error fault => exact .error rfl
  | ok taken =>
    cases taken with
    | none => exact .ok .unmatched
    | some taken =>
      obtain ⟨matched, params⟩ := taken
      have hsatisfied := Declarations.satisfiedBy_iff hcompiled
        fun name v hmem => exists_slot_of_takeApart hm' htake hmem
      refine (Verdict.rel_ofParams h.definitions params).map fun verdict verdict' hverdict => ?_
      rw [← hsatisfied] at hverdict
      rw [resultFor, resultFor]
      by_cases hconforms : verdict.conforms = true
      · rw [if_pos hconforms]
        rw [and_iff_right hconforms] at hverdict
        by_cases hsatisfies : m'.declarations.SatisfiedBy params
        · rw [if_pos (hverdict.mpr hsatisfies)]
          exact .kept hsatisfies
        · rw [if_neg fun hconforms' => hsatisfies (hverdict.mp hconforms')]
          exact .dropped hsatisfies
      · rw [if_neg hconforms, if_neg fun hconforms' => hconforms (hverdict.mp hconforms').1]
        exact .unmatched

/-- When two declarations give each parameter of a template definitions of which the second one has
further well-typed constraints, the template gives the same pattern and slots under both of them, or
fails alike. The matches of a path with the second ones are those with the first ones whose values
satisfy the further constraints. -/
theorem rel_ofTemplate_tightened {template : String} {declarations declarations' : Declarations}
    (h : ∀ name, Mentions template name →
      Declarations.GiveRelated Definition.TightenedTo declarations declarations' name)
    (given : Options.Given) :
    Except.Rel Eq (FilteredBy declarations')
      (ofTemplate template (.mapping declarations) given .standard).outcome
      (ofTemplate template (.mapping declarations') given .standard).outcome := by
  have hcaptures : ∀ d d', Definition.TightenedTo d d' → d.CapturesAlike d' := fun _ _ hde =>
    ⟨hde.type_eq, hde.required_eq,
      by rw [Definition.isWritable, Definition.isWritable, hde.enum_eq], congrArg _ hde.enum_eq⟩
  rw [outcome_ofTemplate_eq, outcome_ofTemplate_eq]
  cases Options.ofGiven given with
  | error fault => exact .error rfl
  | ok options =>
    refine (Compiled.rel_ofTemplate hcaptures h).with_eq.map ?_
    rintro compiled compiled' ⟨hrelated, -, hcompiled'⟩
    have hfilters := @filters_match? ⟨template, declarations, options, compiled, .standard⟩
      ⟨template, declarations', options, compiled', .standard⟩ rfl rfl hcompiled' hrelated
    refine ⟨hrelated.pattern_eq, hrelated.slots_eq, hfilters, fun path group => ?_⟩
    rw [outcome_matchConcurrently?_of_standard rfl, outcome_matchConcurrently?_of_standard rfl]
    exact hfilters path

/-- A bound that a number exceeds and one on the length of a text reject values. A pattern has no
effect on a number, nor a bound on a text, nor any constraint on a value that is missing. -/
theorem rel_ofTemplate_tightened_of_other_kinds :
    let integer : Fields Value := [("type", .text "integer")]
    let optional : Fields Value := [("required", .bool false)]
    let declarations : Declarations := [("n", .mapping integer), ("s", .mapping optional)]
    let declarations' : Declarations :=
      [("n", .mapping (integer ++ [("maximum", .int 9), ("pattern", .text "a")])),
        ("s", .mapping (optional ++ [("maxLength", .int 2), ("minimum", .int 5)]))]
    (∀ name, Mentions "/{n}/{s}" name →
      Declarations.GiveRelated Definition.TightenedTo declarations declarations' name) ∧
    ∃ m m', (ofTemplate "/{n}/{s}" (.mapping declarations) .none .standard).outcome = .ok m ∧
      (ofTemplate "/{n}/{s}" (.mapping declarations') .none .standard).outcome = .ok m' ∧
      m.FilteredBy declarations' m' ∧
      (m'.match? "/7").outcome = .ok (some ⟨"/7", [("n", .int 7), ("s", .null)]⟩) ∧
      (m.match? "/7/abc").outcome =
        .ok (some ⟨"/7/abc", [("n", .int 7), ("s", .text "abc")]⟩) ∧
      (m'.match? "/7/abc").outcome = .ok none := by
  intro integer optional declarations declarations'
  have hm : ∃ m, (ofTemplate "/{n}/{s}" (.mapping declarations) .none .standard).outcome = .ok m ∧
      (Compiled.ofTemplate "/{n}/{s}" declarations .standard).outcome = .ok m.compiled ∧
      m.compiled.slots = [⟨"n", '/', false⟩, ⟨"s", '/', false⟩] ∧
      (m.match? "/7/abc").outcome =
        .ok (some ⟨"/7/abc", [("n", .int 7), ("s", .text "abc")]⟩) :=
    ⟨_, rfl, rfl, rfl, rfl⟩
  have hm' : ∃ m', (ofTemplate "/{n}/{s}" (.mapping declarations') .none .standard).outcome =
        .ok m' ∧
      (m'.match? "/7").outcome = .ok (some ⟨"/7", [("n", .int 7), ("s", .null)]⟩) ∧
      (m'.match? "/7/abc").outcome = .ok none :=
    ⟨_, rfl, rfl, rfl⟩
  obtain ⟨m, hm, hcompiled, hslots, hmatch⟩ := hm
  obtain ⟨m', hm', hmissing, hrejected⟩ := hm'
  have hinteger : Definition.TightenedTo ⟨"n", .integer, true, .none⟩
      ⟨"n", .integer, true,
        { Constraints.none with maximum := some (.int 9), pattern := some (.text "a") }⟩ := by
    refine ⟨rfl, rfl, rfl, rfl, ?_⟩
    constructor
    case pattern =>
      rintro _ ⟨⟩
      exact ⟨"a", _, rfl, rfl⟩
    case maximum => simpa using Value.isNumber_int 9
    all_goals simp [Constraints.none]
  have hoptional : Definition.TightenedTo ⟨"s", .string, false, .none⟩
      ⟨"s", .string, false,
        { Constraints.none with maxLength := some (.int 2), minimum := some (.int 5) }⟩ := by
    refine ⟨rfl, rfl, rfl, rfl, ?_⟩
    constructor
    case maxLength => simpa using Value.isNumber_int 2
    case minimum => simpa using Value.isNumber_int 5
    all_goals simp [Constraints.none]
  have htightened : ∀ name, Mentions "/{n}/{s}" name →
      Declarations.GiveRelated Definition.TightenedTo declarations declarations' name := by
    intro name hname
    obtain ⟨slot, hslot, rfl⟩ := (Compiled.exists_slot_iff_mentions hcompiled).mpr hname
    rw [hslots] at hslot
    rcases List.mem_cons.mp hslot with rfl | hslot
    · exact ⟨_, _, rfl, rfl, hinteger⟩
    · rw [List.mem_singleton.mp hslot]
      exact ⟨_, _, rfl, rfl, hoptional⟩
  have hfiltered := rel_ofTemplate_tightened htightened .none
  rw [hm, hm'] at hfiltered
  cases hfiltered with
  | ok hfiltered =>
    exact ⟨htightened, m, m', hm, hm', hfiltered, hmissing, hmatch, hrejected⟩

end Matcher

end RouteTemplate
