/-
# What a match reports

With the standard collaborators, a match gives a value for every parameter that the template refers
to, and for no other. Each value comes from the first reference to its parameter, and is admitted by
the definition of the parameter; it is missing only where this reference may be left out.

## Main definitions

* `Matcher.taken?` — what the references of a matcher take from a path
* `Definition.Gives` — the value that a definition gives to what a reference takes
* `Matcher.Reports` — the names and the values that a match is to have

## Main results

* `Matcher.exists_verdict` — the values of a match have been found to conform, in either way of
  matching
* `Matcher.reports_of_match?` — every match has the names and the values that it is to have
-/

import RouteTemplate.Proofs.Checking.Admission
import RouteTemplate.Proofs.Matching.Boundary

namespace RouteTemplate

open Template

/-- The value that a definition gives to what a reference takes: none if the reference is left out,
which an optional parameter allows; otherwise the text is decoded and converted to the type of the
parameter, and the value is one that the definition admits. -/
def Definition.Gives (definition : Definition Value) (group : Option String) (v : Value) : Prop :=
  (v = .null ∧ group = none ∧ definition.required = false) ∨
    (v ≠ .null ∧ definition.Admits v ∧ ∃ text decoded, group = some text ∧
      Text.percentDecode? text = some decoded ∧
      (Value.text decoded).convertTo definition.type = .ok v)

/-- A text is never converted to null. -/
theorem convertTo_text_ne_null {type : ParameterType} {text : String} {v : Value}
    (h : (Value.text text).convertTo type = .ok v) : v ≠ .null := by
  rintro rfl
  obtain ⟨read, hread, h⟩ := Except.bind_eq_ok_iff.mp h
  cases read with
  | none => exact absurd (Except.ok.inj h) (by simp)
  | some w =>
    obtain rfl : w = .null := Except.ok.inj h
    cases type with
    | date =>
      rw [readText] at hread
      cases hdate : Calendar.MailDate.read text.toList with
      | error cause =>
        rw [hdate] at hread
        exact absurd hread (by simp)
      | ok date =>
        rw [hdate] at hread
        exact absurd (Except.ok.inj hread) (by simp)
    | _ => exact absurd (Except.ok.inj hread) (by simp)

/-- A value that is captured, converted and checked is given by its definition. -/
theorem Definition.gives_of_decodeGroup {definition : Definition Value} {group : Option String}
    {captured v : Value} (hgroup : decodeGroup group = .ok captured)
    (hconvert : captured.convertTo definition.type = .ok v)
    (hchecked : (v = .null ∧ definition.required = false) ∨
      (v ≠ .null ∧ definition.Admits v)) : definition.Gives group v := by
  rcases decodeGroup_eq_ok hgroup with ⟨rfl, rfl⟩ | ⟨text, decoded, rfl, hdecode, rfl⟩
  · obtain rfl : .null = v := Except.ok.inj hconvert
    obtain ⟨-, hrequired⟩ := hchecked.resolve_right fun h => h.1 rfl
    exact .inl ⟨rfl, rfl, hrequired⟩
  · have hv := convertTo_text_ne_null hconvert
    obtain ⟨-, hadmits⟩ := hchecked.resolve_left fun h => hv h.1
    exact .inr ⟨hv, hadmits, text, decoded, rfl, decodeText_eq_ok_iff.mp hdecode, hconvert⟩

/-- There is a group for every slot. -/
theorem Pattern.length_groups_of_find? {pattern : Pattern} {groupCount : Nat} {path : String}
    {found : Found} (h : pattern.find? groupCount path = some found) :
    found.groups.length = groupCount := by
  obtain ⟨q, -, -, hgroups⟩ := Pattern.exists_of_find?_eq_some h
  rw [hgroups, Regex.Cursor.groupsFrom, List.length_map, List.length_range']

/-- With a group for every slot, there is a first one under the names of the slots. -/
theorem isSome_firstGroup?_iff {slots : List Slot} {groups : List (Option String)}
    (hlength : groups.length = slots.length) {name : String} :
    (firstGroup? (slots.zip groups) name).isSome ↔ ∃ slot ∈ slots, slot.name = name := by
  induction slots generalizing groups with
  | nil => simp [firstGroup?]
  | cons slot slots ih =>
    obtain ⟨group, groups, rfl⟩ := List.exists_cons_of_length_eq_add_one hlength
    have hrest := ih (Nat.succ.inj hlength)
    rw [List.zip_cons_cons, firstGroup?_cons, List.exists_mem_cons_iff]
    by_cases hname : name = slot.name
    · rw [if_pos hname]
      exact ⟨fun _ => .inl hname.symm, fun _ => rfl⟩
    · rw [if_neg hname, hrest]
      exact (or_iff_right (Ne.symm hname)).symm

namespace Matcher

variable {m : Matcher} {path : String} {result : Match}

/-- What the references of a matcher take from a path. A template that matches every path has none.
-/
def taken? (m : Matcher) (path : String) : Option Taken :=
  m.compiled.pattern.bind fun pattern =>
    (pattern.find? m.compiled.slots.length path).map fun found =>
      m.compiled.slots.zip found.groups

/-- The path has been matched with the standard collaborators, in one of the two ways. -/
def MatchesByStandard (m : Matcher) (path : String) (result : Match) : Prop :=
  m.collaborators.chosenSanitizer = standardSanitizer ∧
    ((m.collaborators.chosenValidator = standardValidator ∧
        (m.match? path).outcome = .ok (some result)) ∨
      (m.collaborators.chosenCheck = standardCheck ∧
        ∃ group, (m.matchConcurrently? path group).outcome = .ok (some result)))

/-- The names and the values that a match is to have: the names of the parameters that the template
refers to, each once, and under each of them the value that its definition gives to what the first
reference to it takes from the path. -/
structure Reports (m : Matcher) (path : String) (result : Match) : Prop where
  nodup_names : (Fields.names result.params).Nodup
  mem_names_iff : ∀ name, name ∈ Fields.names result.params ↔ Template.Mentions m.template name
  gives : ∀ name v, (name, v) ∈ result.params →
    ∃ definition taken u slash rest group,
      Definition.ofValue name (m.declarations.describe name) = .ok definition ∧
      m.compiled.definitions.get? name = some definition ∧
      m.taken? path = some taken ∧ m.Takes path result.path taken u slash rest ∧
      firstGroup? taken name = some group ∧ definition.Gives group v

/-- The values of a match have been found to conform. -/
theorem exists_verdict (h : m.MatchesByStandard path result) :
    (m.takeApart path).outcome = .ok (some (result.path, result.params)) ∧
      ∃ verdict, Verdict.ofParams result.params m.compiled.definitions = .ok verdict ∧
        verdict.conforms = true := by
  obtain ⟨matched, params⟩ := result
  obtain ⟨hsanitizer, ⟨hvalidator, hmatch⟩ | ⟨hcheck, group, hmatch⟩⟩ := h
  · obtain ⟨htake, hdecision⟩ := (outcome_matchWith_eq_some_iff _).mp hmatch
    rw [hvalidator] at hdecision
    exact ⟨htake, Except.map_eq_ok_iff.mp hdecision⟩
  · obtain ⟨htake, hdecision⟩ := (outcome_matchWith_eq_some_iff _).mp hmatch
    have hdistinct : Sanitizer.KeepsNamesDistinct m.collaborators.chosenSanitizer := by
      rw [hsanitizer]
      exact keepsNamesDistinct_standardSanitizer
    have hnodup := nodup_names_takeApart hdistinct htake
    rw [hcheck, Validator.decision, outcome_validateConcurrently_standardCheck hnodup] at hdecision
    exact ⟨htake, Except.map_eq_ok_iff.mp hdecision⟩

/-- Every match with the standard collaborators has the names and the values that it is to have. -/
theorem reports_of_match? (hm : m.Reachable) (hmatch : m.MatchesByStandard path result) :
    m.Reports path result := by
  obtain ⟨htake, verdict, hverdict, hconforms⟩ := exists_verdict hmatch
  have hmentions := fun name => @Compiled.exists_slot_iff_mentions _ _ _ _ hm.compiled_eq name
  rcases exists_of_takeApart htake with ⟨hnone, -, hparams⟩ |
    ⟨pattern, found, captured, hpattern, hfind, hcapture, hsanitize, hpath⟩
  · -- A template that matches every path refers to nothing.
    have hslots : m.compiled.slots = [] := by
      rw [(Compiled.universal_of_pattern_eq_none hm.compiled_eq hnone).2]
    refine ⟨?_, fun name => ?_, fun name v hmem => ?_⟩
    · rw [hparams]
      exact List.nodup_nil
    · rw [← hmentions, hslots, hparams]
      simp [Fields.names]
    · rw [hparams] at hmem
      exact absurd hmem List.not_mem_nil
  rw [hmatch.1] at hsanitize
  have hnames : Fields.names result.params = Fields.names captured := names_convert hsanitize
  have hnodup := nodup_names_captureParams hcapture
  have hgroups := Pattern.length_groups_of_find? hfind
  refine ⟨by rwa [hnames], fun name => ?_, fun name v hmem => ?_⟩
  · rw [← hmentions, hnames, ← isSome_firstGroup?_iff hgroups,
      ← isSome_get?_captureParams hcapture, ← not_iff_not, ← Fields.get?_eq_none_iff,
      Option.not_isSome_iff_eq_none]
  · obtain ⟨v', hmem', hconvert⟩ := exists_of_mem_convert hsanitize hmem
    have hget := (Fields.get?_eq_some_iff_mem hnodup).mpr hmem'
    obtain ⟨group, hgroup, hdecode⟩ := exists_of_get?_captureParams hcapture hget
    obtain ⟨slot, hslot, rfl⟩ :=
      (isSome_firstGroup?_iff hgroups).mp (Option.isSome_of_eq_some hgroup)
    obtain ⟨definition, hdefinition, hresolved⟩ :=
      Compiled.exists_definition_of_mem_slots hm.compiled_eq hslot
    obtain ⟨u, slash, rest, htakes⟩ := exists_takes hm hpattern hfind
    have htaken : m.taken? path = some (m.compiled.slots.zip found.groups) := by
      rw [taken?, hpattern, Option.bind_some, hfind]
      rfl
    rw [convertFor, hdefinition] at hconvert
    rw [← hpath] at htakes
    exact ⟨definition, _, u, slash, rest, group, hresolved, hdefinition, htaken, htakes, hgroup,
      Definition.gives_of_decodeGroup hdecode hconvert
        (Verdict.admits_of_conforms hverdict hconforms hmem hdefinition)⟩

/-- Two references whose names are written differently share a parameter, of which the first one
gives the value. -/
theorem reports_of_match?_repeated_reference :
    ∃ (m : Matcher) (result : Match), m.Reachable ∧ m.MatchesByStandard "/7/8" result ∧
      result = ⟨"/7/8", [("id", .int 7)]⟩ ∧ m.Reports "/7/8" result := by
  have hmatcher : ∃ m, (Matcher.ofTemplate "/{id}/{%69d}"
        (.mapping [("id", .mapping [("type", .text "integer"), ("minimum", .int 5)]),
          ("unused", .null)]) .none .standard).outcome = .ok m ∧
      m.collaborators = .standard ∧
      (m.match? "/7/8").outcome = .ok (some ⟨"/7/8", [("id", .int 7)]⟩) :=
    ⟨_, rfl, rfl, rfl⟩
  obtain ⟨m, hm, hstandard, hmatch⟩ := hmatcher
  have hmatch : m.MatchesByStandard "/7/8" ⟨"/7/8", [("id", .int 7)]⟩ := by
    rw [MatchesByStandard, hstandard]
    exact ⟨rfl, .inl ⟨rfl, hmatch⟩⟩
  exact ⟨m, _, .ofTemplate hm, hmatch, rfl, reports_of_match? (.ofTemplate hm) hmatch⟩

end Matcher

end RouteTemplate
