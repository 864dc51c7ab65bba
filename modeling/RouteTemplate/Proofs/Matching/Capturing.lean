/-
# The values that a path gives

The first text that is captured under a name is decoded, and converted to the type of its parameter.
A name never stands twice among the values, and the names are those of the slots, in order.

## Main definitions

* `decodeGroup` — the value of a capture group
* `firstGroup?` — the first of the groups that stand under a name
* `convertFor` — the value of a parameter, converted to its type

## Main results

* `captureParams_cons`, `convert_cons` — one capture and one value at a time
* `exists_of_mem_captureParams` — every value is that of a group under its name
* `get?_captureParams` — it is that of the first one
* `Matcher.exists_of_takeApart`, `Matcher.exists_of_takeApart_eq_error` — how a path is taken
  apart, and where this fails
* `nodup_names_takeApart` — no name stands twice among the values of a path
-/

import Mathlib.Data.List.Forall2
import RouteTemplate.Matching.Matcher
import RouteTemplate.Proofs.Except
import RouteTemplate.Proofs.Fields
import RouteTemplate.Proofs.Template.Resolution

namespace RouteTemplate

open Template

/-! ## Captures -/

/-- The value of a capture group: its text, decoded, or null if it took no part. -/
def decodeGroup : Option String → Except Fault Value
  | none => .ok .null
  | some text => (decodeText text).map .text

/-- A capture under a known name is passed over, and any other one is decoded. -/
theorem captureParams_cons (slot : Slot) (slots : List Slot) (group : Option String)
    (groups : List (Option String)) (params : Params) :
    captureParams (slot :: slots) (group :: groups) params =
      if params.has slot.name then captureParams slots groups params
      else (decodeGroup group).bind fun v =>
        captureParams slots groups (params.put slot.name v) := by
  cases group <;> rfl

/-- A capture group fails to give a value only when its text is no percent-encoding. -/
theorem decodeGroup_eq_error {group : Option String} {fault : Fault}
    (h : decodeGroup group = .error fault) :
    ∃ text, group = some text ∧ fault = .malformedEncoding text := by
  cases group with
  | none => exact absurd h (by simp [decodeGroup])
  | some text => exact ⟨text, rfl, (decodeText_eq_error_iff.mp (Except.map_eq_error_iff.mp h)).2⟩

/-- The value that is captured in a group is null or a text. -/
theorem decodeGroup_eq_ok {group : Option String} {v : Value} (h : decodeGroup group = .ok v) :
    (group = none ∧ v = .null) ∨
      ∃ text decoded, group = some text ∧ decodeText text = .ok decoded ∧ v = .text decoded := by
  cases group with
  | none => exact .inl ⟨rfl, (Except.ok.inj h).symm⟩
  | some text =>
    obtain ⟨decoded, hdecode, rfl⟩ := Except.map_eq_ok_iff.mp h
    exact .inr ⟨text, decoded, rfl, hdecode, rfl⟩

/-- The first of the groups that stand under a name. -/
def firstGroup? (taken : List (Slot × Option String)) (name : String) : Option (Option String) :=
  Fields.get? (taken.map fun (slot, group) => (slot.name, group)) name

theorem firstGroup?_cons (slot : Slot) (group : Option String)
    (taken : List (Slot × Option String)) (name : String) :
    firstGroup? ((slot, group) :: taken) name =
      if name = slot.name then some group else firstGroup? taken name :=
  Fields.get?_cons slot.name group _ name

section Captured

variable {slots : List Slot} {groups : List (Option String)} {params captured : Params}

/-- What holds of the values so far, and of a value that is put under a new name, holds of all
values that are captured. -/
theorem captureParams_induction (motive : Params → Prop) (hstart : motive params)
    (hput : ∀ slot group v params, (slot, group) ∈ slots.zip groups → decodeGroup group = .ok v →
      params.has slot.name = false → motive params → motive (params.put slot.name v))
    (h : captureParams slots groups params = .ok captured) : motive captured := by
  induction slots generalizing groups params with
  | nil =>
    obtain rfl : params = captured := Except.ok.inj h
    exact hstart
  | cons slot slots ih =>
    cases groups with
    | nil =>
      obtain rfl : params = captured := Except.ok.inj h
      exact hstart
    | cons group groups =>
      rw [captureParams_cons] at h
      -- What is put later comes from the captures that follow.
      have hlater := fun slot' group' v params' (hmem : (slot', group') ∈ slots.zip groups) =>
        hput slot' group' v params' (List.mem_cons_of_mem _ hmem)
      split at h
      · exact ih hstart hlater h
      · rename_i hhas
        obtain ⟨v, hgroup, h⟩ := Except.bind_eq_ok_iff.mp h
        refine ih ?_ hlater h
        exact hput slot group v params List.mem_cons_self hgroup (Bool.eq_false_iff.mpr hhas) hstart

theorem nodup_names_captureParams (h : captureParams slots groups [] = .ok captured) :
    (Fields.names captured).Nodup := by
  refine captureParams_induction (fun params => (Fields.names params).Nodup) ?_ ?_ h
  · exact List.nodup_nil
  · intro slot group v params _ _ _ hnodup
    exact Fields.nodup_names_put hnodup slot.name v

/-- Every value that is captured is that of a group under its name. -/
theorem exists_of_mem_captureParams (h : captureParams slots groups [] = .ok captured)
    {name : String} {v : Value} (hmem : (name, v) ∈ captured) :
    ∃ slot group, (slot, group) ∈ slots.zip groups ∧ slot.name = name ∧
      decodeGroup group = .ok v := by
  refine captureParams_induction (fun params => ∀ name v, (name, v) ∈ params →
    ∃ slot group, (slot, group) ∈ slots.zip groups ∧ slot.name = name ∧
      decodeGroup group = .ok v) ?_ ?_ h name v hmem
  · intro name v hmem
    exact absurd hmem List.not_mem_nil
  · intro slot group v params hzip hgroup hnew hparams name w hmem
    have hfresh : slot.name ∉ Fields.names params := by
      rw [← Fields.get?_eq_none_iff, ← Option.not_isSome_iff_eq_none]
      exact Bool.eq_false_iff.mp hnew
    rw [Fields.put_of_notMem hfresh, List.mem_append, List.mem_singleton] at hmem
    rcases hmem with hmem | hlast
    · exact hparams name w hmem
    · obtain ⟨rfl, rfl⟩ := Prod.mk.inj hlast
      exact ⟨slot, group, hzip, rfl, hgroup⟩

/-- A value that is there already stays. -/
theorem get?_captureParams_of_has (h : captureParams slots groups params = .ok captured)
    {name : String} {v : Value} (hget : params.get? name = some v) :
    captured.get? name = some v := by
  refine captureParams_induction (fun params => params.get? name = some v) hget ?_ h
  intro slot group w params _ _ hnew hget
  rw [Fields.get?_put, if_neg]
  · exact hget
  · rintro rfl
    rw [Fields.has, hget] at hnew
    exact absurd hnew (by simp)

/-- Under a name without a value, the first group that stands under the name gives one. -/
theorem get?_captureParams (h : captureParams slots groups params = .ok captured) {name : String}
    (hnew : params.get? name = none) :
    Option.Rel (fun group v => decodeGroup group = .ok v) (firstGroup? (slots.zip groups) name)
      (captured.get? name) := by
  induction slots generalizing groups params with
  | nil =>
    obtain rfl : params = captured := Except.ok.inj h
    rw [hnew]
    exact .none
  | cons slot slots ih =>
    cases groups with
    | nil =>
      obtain rfl : params = captured := Except.ok.inj h
      rw [hnew]
      exact .none
    | cons group groups =>
      rw [captureParams_cons] at h
      rw [List.zip_cons_cons, firstGroup?_cons]
      by_cases hname : name = slot.name
      · -- This group is the first one, and later ones leave its value alone.
        subst hname
        rw [Fields.has, hnew, Option.isSome_none, if_neg Bool.false_ne_true] at h
        obtain ⟨v, hgroup, h⟩ := Except.bind_eq_ok_iff.mp h
        have hput : (params.put slot.name v).get? slot.name = some v := by
          rw [Fields.get?_put, if_pos rfl]
        rw [if_pos rfl, get?_captureParams_of_has h hput]
        exact .some hgroup
      · rw [if_neg hname]
        split at h
        · exact ih h hnew
        · obtain ⟨v, -, h⟩ := Except.bind_eq_ok_iff.mp h
          refine ih h ?_
          rw [Fields.get?_put, if_neg hname]
          exact hnew

theorem isSome_get?_captureParams (h : captureParams slots groups [] = .ok captured)
    (name : String) :
    (captured.get? name).isSome = (firstGroup? (slots.zip groups) name).isSome := by
  have hfirst := get?_captureParams h (Fields.get?_nil name)
  generalize firstGroup? (slots.zip groups) name = first at hfirst ⊢
  generalize captured.get? name = v at hfirst ⊢
  cases hfirst with
  | none => rfl
  | some _ => rfl

theorem exists_of_get?_captureParams (h : captureParams slots groups [] = .ok captured)
    {name : String} {v : Value} (hget : captured.get? name = some v) :
    ∃ group, firstGroup? (slots.zip groups) name = some group ∧ decodeGroup group = .ok v := by
  have hfirst := get?_captureParams h (Fields.get?_nil name)
  rw [hget] at hfirst
  generalize firstGroup? (slots.zip groups) name = first at hfirst ⊢
  cases hfirst with
  | some hgroup => exact ⟨_, rfl, hgroup⟩

/-- Capturing fails only when a text that is captured is no percent-encoding. -/
theorem captureParams_eq_error {fault : Fault}
    (h : captureParams slots groups params = .error fault) :
    ∃ text, fault = .malformedEncoding text := by
  induction slots generalizing groups params with
  | nil => exact absurd h (by simp [captureParams])
  | cons slot slots ih =>
    cases groups with
    | nil => exact absurd h (by simp [captureParams])
    | cons group groups =>
      rw [captureParams_cons] at h
      split at h
      · exact ih h
      · rcases Except.bind_eq_error_iff.mp h with hgroup | ⟨v, -, h⟩
        · obtain ⟨text, -, hfault⟩ := decodeGroup_eq_error hgroup
          exact ⟨text, hfault⟩
        · exact ih h

end Captured

/-! ## Conversion -/

/-- The value of a parameter, converted to its type if it has a definition. -/
def convertFor (definitions : Definitions) (name : String) (v : Value) : Except Fault Value :=
  match definitions.get? name with
  | some definition => v.convertTo definition.type
  | none => .ok v

theorem convert_cons (definitions : Definitions) (name : String) (v : Value) (params : Params) :
    Params.convert definitions ((name, v) :: params) =
      (convertFor definitions name v).bind fun w =>
        (Params.convert definitions params).map ((name, w) :: ·) := by
  rw [Params.convert, List.mapM_cons, ← Params.convert, convertFor]
  dsimp only
  -- The value, then those that follow; each either fails or is put in its place.
  cases definitions.get? name with
  | none =>
    dsimp only
    cases Params.convert definitions params <;> rfl
  | some definition =>
    dsimp only
    cases v.convertTo definition.type with
    | error fault => rfl
    | ok w => cases Params.convert definitions params <;> rfl

section Converted

variable {definitions : Definitions} {params converted : Params}

/-- Values are converted one by one, each under its name. -/
theorem convert_eq_ok_iff :
    Params.convert definitions params = .ok converted ↔
      List.Forall₂ (fun entry entry' => entry'.1 = entry.1 ∧
        convertFor definitions entry.1 entry.2 = .ok entry'.2) params converted := by
  induction params generalizing converted with
  | nil =>
    rw [List.forall₂_nil_left_iff]
    constructor
    · intro h
      exact (Except.ok.inj h).symm
    · rintro rfl
      rfl
  | cons entry params ih =>
    obtain ⟨name, v⟩ := entry
    rw [convert_cons, List.forall₂_cons_left_iff]
    cases convertFor definitions name v with
    | error fault => simp [Except.bind]
    | ok w =>
      simp only [Except.bind, ← ih]
      cases Params.convert definitions params with
      | error fault => simp [Except.map]
      | ok rest =>
        constructor
        · intro h
          exact ⟨(name, w), rest, ⟨rfl, rfl⟩, rfl, (Except.ok.inj h).symm⟩
        · rintro ⟨⟨_, _⟩, _, ⟨rfl, hw⟩, hrest, rfl⟩
          rw [Except.ok.inj hw, Except.ok.inj hrest]
          rfl

/-- Converting fails only where a value does not convert. -/
theorem exists_of_convert_eq_error {fault : Fault}
    (h : Params.convert definitions params = .error fault) :
    ∃ name v, (name, v) ∈ params ∧ convertFor definitions name v = .error fault := by
  induction params with
  | nil =>
    have hnil : Params.convert definitions [] = .ok [] := rfl
    exact absurd (hnil.symm.trans h) (by simp)
  | cons entry params ih =>
    obtain ⟨name, v⟩ := entry
    rw [convert_cons] at h
    rcases Except.bind_eq_error_iff.mp h with hv | ⟨w, -, h⟩
    · exact ⟨name, v, List.mem_cons_self, hv⟩
    · obtain ⟨name', v', hmem, hv'⟩ := ih (Except.map_eq_error_iff.mp h)
      exact ⟨name', v', List.mem_cons_of_mem _ hmem, hv'⟩

/-- Converting keeps the names of the values. -/
theorem names_convert (h : Params.convert definitions params = .ok converted) :
    Fields.names converted = Fields.names params := by
  have hentries := convert_eq_ok_iff.mp h
  clear h
  induction hentries with
  | nil => rfl
  | cons hentry _ ih => exact congrArg₂ List.cons hentry.1 ih

/-- Every value that is converted stood under its name before. -/
theorem exists_of_mem_convert (h : Params.convert definitions params = .ok converted)
    {name : String} {w : Value} (hmem : (name, w) ∈ converted) :
    ∃ v, (name, v) ∈ params ∧ convertFor definitions name v = .ok w := by
  have hentries := convert_eq_ok_iff.mp h
  clear h
  induction hentries with
  | nil => exact absurd hmem List.not_mem_nil
  | @cons entry entry' params converted hentry _ ih =>
    obtain ⟨name', v⟩ := entry
    rcases List.mem_cons.mp hmem with rfl | hmem
    · obtain ⟨rfl, hv⟩ := hentry
      exact ⟨v, List.mem_cons_self, hv⟩
    · obtain ⟨v, hv, hconvert⟩ := ih hmem
      exact ⟨v, List.mem_cons_of_mem _ hv, hconvert⟩

end Converted

/-! ## Paths -/

/-- A sanitizer gives no name twice when none is given to it twice. -/
def Sanitizer.KeepsNamesDistinct (sanitizer : Sanitizer) : Prop :=
  ∀ params definitions sanitized, (Fields.names params).Nodup →
    (sanitizer params definitions).outcome = .ok sanitized → (Fields.names sanitized).Nodup

theorem keepsNamesDistinct_standardSanitizer :
    Sanitizer.KeepsNamesDistinct standardSanitizer := by
  intro params definitions sanitized hnodup h
  rw [names_convert h]
  exact hnodup

namespace Matcher

variable {m : Matcher} {path matched : String} {params : Params}

/-- The options are read first, then the declarations, and then the template is compiled. -/
theorem outcome_ofTemplate_eq (template : String) (parameters : Value) (given : Options.Given)
    (collaborators : Collaborators) :
    (ofTemplate template parameters given collaborators).outcome =
      (Options.ofGiven given).bind fun options =>
        (Declarations.ofValue parameters).bind fun declarations =>
          (Compiled.ofTemplate template declarations options).outcome.map fun compiled =>
            ⟨template, declarations, options, compiled, collaborators⟩ := by
  simp only [ofTemplate, build, Run.outcome_bind, Run.ofExcept]
  rfl

/-- A matcher is made of the declarations and the options that are given, and of the template that
they compile. -/
theorem exists_of_ofTemplate {template : String} {parameters : Value} {given : Options.Given}
    {collaborators : Collaborators}
    (h : (ofTemplate template parameters given collaborators).outcome = .ok m) :
    ∃ declarations options compiled, Declarations.ofValue parameters = .ok declarations ∧
      Options.ofGiven given = .ok options ∧
      (Compiled.ofTemplate template declarations options).outcome = .ok compiled ∧
      m = ⟨template, declarations, options, compiled, collaborators⟩ := by
  rw [outcome_ofTemplate_eq] at h
  obtain ⟨options, hoptions, h⟩ := Except.bind_eq_ok_iff.mp h
  obtain ⟨declarations, hdeclarations, h⟩ := Except.bind_eq_ok_iff.mp h
  obtain ⟨compiled, hcompiled, rfl⟩ := Except.map_eq_ok_iff.mp h
  exact ⟨declarations, options, compiled, hdeclarations, hoptions, hcompiled, rfl⟩

theorem outcome_ofTemplate {template : String} {parameters : Value} {given : Options.Given}
    {declarations : Declarations} {options : Options} {compiled : Compiled}
    (hdeclarations : Declarations.ofValue parameters = .ok declarations)
    (hoptions : Options.ofGiven given = .ok options)
    (hcompiled : (Compiled.ofTemplate template declarations options).outcome = .ok compiled)
    (collaborators : Collaborators) :
    (ofTemplate template parameters given collaborators).outcome =
      .ok ⟨template, declarations, options, compiled, collaborators⟩ := by
  simp only [outcome_ofTemplate_eq, hdeclarations, hoptions, hcompiled, Except.bind, Except.map]

theorem collaborators_of_ofTemplate {template : String} {parameters : Value} {given : Options.Given}
    {collaborators : Collaborators}
    (h : (ofTemplate template parameters given collaborators).outcome = .ok m) :
    m.collaborators = collaborators := by
  obtain ⟨_, _, _, -, -, -, rfl⟩ := exists_of_ofTemplate h
  rfl

theorem outcome_takeApart_of_universal (hpattern : m.compiled.pattern = none) (path : String) :
    (m.takeApart path).outcome = .ok (some ("", [])) := by
  rw [takeApart, hpattern]
  rfl

/-- A path that matches is taken apart by decoding what the groups have captured and handing it to
the sanitizer. -/
theorem outcome_takeApart_of_pattern {pattern : Pattern}
    (hpattern : m.compiled.pattern = some pattern) (path : String) :
    (m.takeApart path).outcome =
      match pattern.find? m.compiled.slots.length path with
      | none => .ok none
      | some found =>
        (captureParams m.compiled.slots found.groups []).bind fun captured =>
          (m.collaborators.chosenSanitizer captured m.compiled.definitions).outcome.map
            fun params => some (found.path, params) := by
  rw [takeApart, hpattern]
  dsimp only
  cases pattern.find? m.compiled.slots.length path with
  | none => rfl
  | some found =>
    dsimp only
    rw [Run.outcome_bind]
    refine congrArg _ (funext fun captured => ?_)
    rw [Run.outcome_bind]
    cases (m.collaborators.chosenSanitizer captured m.compiled.definitions).outcome <;> rfl

/-- A path that is taken apart matches the pattern, unless the template matches every path. -/
theorem exists_of_takeApart (h : (m.takeApart path).outcome = .ok (some (matched, params))) :
    (m.compiled.pattern = none ∧ matched = "" ∧ params = []) ∨
      ∃ pattern found captured, m.compiled.pattern = some pattern ∧
        pattern.find? m.compiled.slots.length path = some found ∧
        captureParams m.compiled.slots found.groups [] = .ok captured ∧
        (m.collaborators.chosenSanitizer captured m.compiled.definitions).outcome = .ok params ∧
        matched = found.path := by
  cases hpattern : m.compiled.pattern with
  | none =>
    rw [outcome_takeApart_of_universal hpattern] at h
    obtain ⟨rfl, rfl⟩ := Prod.mk.inj (Option.some.inj (Except.ok.inj h))
    exact .inl ⟨rfl, rfl, rfl⟩
  | some pattern =>
    rw [outcome_takeApart_of_pattern hpattern] at h
    cases hfind : pattern.find? m.compiled.slots.length path with
    | none =>
      rw [hfind] at h
      exact absurd h (by simp)
    | some found =>
      rw [hfind] at h
      obtain ⟨captured, hcapture, h⟩ := Except.bind_eq_ok_iff.mp h
      obtain ⟨sanitized, hsanitize, h⟩ := Except.map_eq_ok_iff.mp h
      obtain ⟨rfl, rfl⟩ := Prod.mk.inj (Option.some.inj h)
      exact .inr ⟨pattern, found, captured, rfl, hfind, hcapture, hsanitize, rfl⟩

/-- Taking apart a path fails where what the groups have captured is decoded, or in the sanitizer.
-/
theorem exists_of_takeApart_eq_error {fault : Fault}
    (h : (m.takeApart path).outcome = .error fault) :
    ∃ pattern found, m.compiled.pattern = some pattern ∧
      pattern.find? m.compiled.slots.length path = some found ∧
      (captureParams m.compiled.slots found.groups [] = .error fault ∨
        ∃ captured, captureParams m.compiled.slots found.groups [] = .ok captured ∧
          (m.collaborators.chosenSanitizer captured m.compiled.definitions).outcome =
            .error fault) := by
  cases hpattern : m.compiled.pattern with
  | none =>
    rw [outcome_takeApart_of_universal hpattern] at h
    exact absurd h (by simp)
  | some pattern =>
    rw [outcome_takeApart_of_pattern hpattern] at h
    cases hfind : pattern.find? m.compiled.slots.length path with
    | none =>
      rw [hfind] at h
      exact absurd h (by simp)
    | some found =>
      refine ⟨pattern, found, rfl, hfind, ?_⟩
      rw [hfind] at h
      refine (Except.bind_eq_error_iff.mp h).imp_right ?_
      rintro ⟨captured, hcapture, h⟩
      exact ⟨captured, hcapture, Except.map_eq_error_iff.mp h⟩

/-- No name stands twice among the values of a path. -/
theorem nodup_names_takeApart (hsanitizer : m.collaborators.chosenSanitizer.KeepsNamesDistinct)
    (h : (m.takeApart path).outcome = .ok (some (matched, params))) :
    (Fields.names params).Nodup := by
  rcases exists_of_takeApart h with ⟨-, -, rfl⟩ | ⟨_, _, captured, -, -, hcapture, hsanitize, -⟩
  · exact List.nodup_nil
  · exact hsanitizer captured _ params (nodup_names_captureParams hcapture) hsanitize

end Matcher

end RouteTemplate
