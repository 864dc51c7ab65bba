/-
# Declarations under which a template matches alike

What a matcher does with a path depends on the definitions that the parameters of its template have.
Which paths match, and which values they give, depends on no more than the types of the definitions,
whether they are required, and the texts of their enumerations.

## Main definitions

* `Definition.CapturesAlike` — the references of two definitions take the same texts
* `Declarations.GiveRelated`, `Declarations.GiveAlike` — two declarations give a parameter
  definitions that are related, or that act alike
* `Compiled.Related` — two compiled templates have the same pattern and slots, and definitions that
  are related

## Main results

* `Compiled.rel_ofTemplate` — a template compiles to the same pattern under declarations whose
  definitions capture alike
* `Matcher.outcome_takeApart_congr` — matchers with the same pattern take every path apart alike
* `Compiled.exists_alike` — a template compiles alike under declarations that give its parameters
  definitions that act alike
* `Matcher.outcome_match?_congr` — matchers of templates that are compiled alike match every path
  alike
-/

import RouteTemplate.Proofs.Checking.Likeness
import RouteTemplate.Proofs.Matching.Agreement
import RouteTemplate.Proofs.Matching.Reaching

namespace RouteTemplate

open Template

/-! ## Captures -/

/-- References with the two definitions take the same texts of a path, and convert them to the same
type. -/
structure Definition.CapturesAlike (d e : Definition Value) : Prop where
  type_eq : d.type = e.type
  required_eq : d.required = e.required
  isWritable_eq : d.isWritable = e.isWritable
  enum_eq : d.constraints.enum.map (List.map Value.pathText) =
    e.constraints.enum.map (List.map Value.pathText)

section Captures

variable {d e : Definition Value}

theorem Definition.Alike.capturesAlike (h : d.Alike e) : d.CapturesAlike e :=
  ⟨h.type_eq, h.required_eq, h.isWritable_eq, h.enum_eq⟩

/-- The enumerations of definitions that capture alike are both absent, or have the same texts. -/
theorem Definition.CapturesAlike.enum_cases (h : d.CapturesAlike e) :
    (d.constraints.enum = none ∧ e.constraints.enum = none) ∨
      ∃ members members', d.constraints.enum = some members ∧ e.constraints.enum = some members' ∧
        members.map Value.pathText = members'.map Value.pathText := by
  have henum := h.enum_eq
  cases hd : d.constraints.enum with
  | none =>
    rw [hd, Option.map_none, eq_comm, Option.map_eq_none_iff] at henum
    exact .inl ⟨rfl, henum⟩
  | some members =>
    rw [hd, Option.map_some, eq_comm, Option.map_eq_some_iff] at henum
    obtain ⟨members', hmembers', htexts⟩ := henum
    exact .inr ⟨members, members', rfl, hmembers', htexts.symm⟩

theorem captureText_congr (h : d.CapturesAlike e) (expand : Bool) (separator : String) :
    captureText d expand separator = captureText e expand separator := by
  have hescaped (members : List Value) :
      members.map (fun v => String.ofList (escape v.pathText.toList)) =
        (members.map Value.pathText).map fun text => String.ofList (escape text.toList) := by
    rw [List.map_map]
    rfl
  rw [captureText, captureText, h.type_eq]
  rcases h.enum_cases with ⟨hd, he⟩ | ⟨members, members', hd, he, htexts⟩
  · rw [hd, he]
  · rw [hd, he]
    simp only [enumText, hescaped, htexts]

theorem captureRegex_congr (h : d.CapturesAlike e) (mode : Regex.CaseMode) (expand : Bool)
    (separator : Char) :
    captureRegex mode d expand separator = captureRegex mode e expand separator := by
  rw [captureRegex, captureRegex, h.type_eq]
  rcases h.enum_cases with ⟨hd, he⟩ | ⟨members, members', hd, he, htexts⟩
  · rw [hd, he]
  · rw [hd, he]
    simp only [enumRegex, htexts]

end Captures

/-! ## Parts -/

/-- Two parts are the same character, or references that stand alike and have definitions that
capture alike. -/
inductive Template.Part.Alike : Part → Part → Prop
  | special (c : Char) : Alike (.special c) (.special c)
  | plain (c : Char) : Alike (.plain c) (.plain c)
  | reference (lead : Option Char) (expand : Bool) {d e : Definition Value} : d.CapturesAlike e →
      Alike (.reference lead expand d) (.reference lead expand e)

/-- The two declarations give a parameter definitions that are related. -/
def Declarations.GiveRelated (R : Definition Value → Definition Value → Prop)
    (declarations declarations' : Declarations) (name : String) : Prop :=
  ∃ d e, Definition.ofValue name (declarations.describe name) = .ok d ∧
    Definition.ofValue name (declarations'.describe name) = .ok e ∧ R d e

/-- The two declarations give a parameter definitions that act alike. -/
def Declarations.GiveAlike (declarations declarations' : Declarations) (name : String) : Prop :=
  ∃ d e, Definition.ofValue name (declarations.describe name) = .ok d ∧
    Definition.ofValue name (declarations'.describe name) = .ok e ∧ d.Alike e

section Parts

variable {parts parts' : List Part} (h : List.Forall₂ Part.Alike parts parts')

include h

theorem map_partText_congr : parts.map Route.partText = parts'.map Route.partText := by
  induction h with
  | nil => rfl
  | cons hpart _ ih =>
    refine congrArg₂ List.cons ?_ ih
    cases hpart with
    | special c => rfl
    | plain c => rfl
    | reference lead expand halike =>
      simp only [Route.partText, captureText_congr halike, halike.required_eq]

theorem partRegexes_congr (mode : Regex.CaseMode) (number : Nat) :
    Route.partRegexes mode number parts = Route.partRegexes mode number parts' := by
  induction h generalizing number with
  | nil => rfl
  | cons hpart _ ih =>
    cases hpart with
    | special c => exact congrArg (_ :: ·) (ih number)
    | plain c => exact congrArg (_ :: ·) (ih number)
    | reference lead expand halike =>
      simp only [Route.partRegexes, captureRegex_congr halike, halike.required_eq, ih]

/-- Routes whose parts are alike have the same pattern. -/
theorem Template.Route.pattern_congr (endsWithSlash : Bool) (options : Options) :
    Route.pattern ⟨parts, endsWithSlash, options⟩ =
      Route.pattern ⟨parts', endsWithSlash, options⟩ := by
  have hrequired : List.Forall₂ Part.Alike (Route.required ⟨parts, endsWithSlash, options⟩)
      (Route.required ⟨parts', endsWithSlash, options⟩) := by
    rw [Route.required, Route.required]
    split
    · -- The slash that may be left out is the last part of both.
      rw [List.dropLast_eq_take, List.dropLast_eq_take, h.length_eq]
      exact List.forall₂_take _ h
    · exact h
  rw [Route.pattern, Route.pattern, Route.text, Route.text, Route.regex, Route.regex,
    map_partText_congr hrequired, partRegexes_congr hrequired]
  rfl

end Parts

section Compiled

variable {declarations declarations' : Declarations}
  {R : Definition Value → Definition Value → Prop}

/-- Pieces resolve to parts that are alike, and to the same slots, under declarations that give the
parameters definitions that capture alike. -/
theorem Template.rel_resolvePieces {pieces : List Piece} {used used' : Definitions}
    (hused : Agree declarations used) (hused' : Agree declarations' used')
    (h : ∀ r name, .reference r ∈ pieces →
      Text.percentDecode? (String.ofList r.rawName) = some name →
      Declarations.GiveRelated Definition.CapturesAlike declarations declarations' name) :
    Except.Rel Eq (fun contents contents' =>
        List.Forall₂ Part.Alike contents.parts contents'.parts ∧ contents.slots = contents'.slots)
      (resolvePieces declarations pieces used) (resolvePieces declarations' pieces used') := by
  induction pieces generalizing used used' with
  | nil => exact .ok ⟨.nil, rfl⟩
  | cons piece pieces ih =>
    have hlater := fun r name hmem => h r name (List.mem_cons_of_mem _ hmem)
    cases piece with
    | special c =>
      exact (ih hused hused' hlater).bind fun _ _ hrest => .ok ⟨.cons (.special c) hrest.1, hrest.2⟩
    | plain c =>
      exact (ih hused hused' hlater).bind fun _ _ hrest => .ok ⟨.cons (.plain c) hrest.1, hrest.2⟩
    | reference r =>
      rw [resolvePieces, resolvePieces]
      cases hname : decodeText (String.ofList r.rawName) with
      | error fault => exact .error rfl
      | ok name =>
        obtain ⟨d, e, hd, he, hde⟩ := h r name List.mem_cons_self (decodeText_eq_ok_iff.mp hname)
        have hd := declaredDefinition_of_ofValue hd
        have he := declaredDefinition_of_ofValue he
        rw [← hde.isWritable_eq] at he
        change Except.Rel _ _ (definitionFor declarations name used >>= _)
          (definitionFor declarations' name used' >>= _)
        rw [definitionFor_eq hused, definitionFor_eq hused']
        split at hd
        · rename_i hwritable
          rw [if_pos hwritable] at he
          have hrest := ih (agree_put hused hd) (agree_put hused' he) hlater
          rw [hd, he]
          exact hrest.bind fun _ _ hrest =>
            .ok ⟨.cons (.reference r.lead r.expand hde) hrest.1, congrArg (_ :: ·) hrest.2⟩
        · rename_i hwritable
          rw [if_neg hwritable] at he
          rw [hd, he]
          exact .error rfl

/-! ## Compiled templates -/

variable {template : String} {options : Options}

/-- The routes of a template have the same pattern and slots under declarations that give its
parameters definitions that capture alike. -/
theorem Template.Route.rel_ofTemplate (hR : ∀ d e, R d e → d.CapturesAlike e)
    (h : ∀ name, Mentions template name →
      Declarations.GiveRelated R declarations declarations' name) :
    Except.Rel Eq (fun x x' => x.1.pattern = x'.1.pattern ∧ x.2.slots = x'.2.slots ∧
        ∀ name, Option.Rel R (x.2.definitions.get? name) (x'.2.definitions.get? name))
      (Route.ofTemplate template declarations options)
      (Route.ofTemplate template declarations' options) := by
  have hpieces := rel_resolvePieces (agree_nil declarations) (agree_nil declarations')
    fun r name hmem hname => by
      obtain ⟨d, e, hd, he, hde⟩ := h name ⟨r, hmem, hname⟩
      exact ⟨d, e, hd, he, hR d e hde⟩
  refine hpieces.with_eq.bind ?_
  rintro contents contents' ⟨⟨hparts, hslots⟩, hcontents, hcontents'⟩
  refine .ok ⟨Route.pattern_congr hparts _ options, hslots, fun name => ?_⟩
  have hroute := Route.ofTemplate_eq_ok_iff.mpr ⟨hcontents, @rfl Route ⟨_, _, options⟩⟩
  have hroute' := Route.ofTemplate_eq_ok_iff.mpr ⟨hcontents', @rfl Route ⟨_, _, options⟩⟩
  rw [Route.get?_definitions hroute, Route.get?_definitions hroute', ← hslots]
  split
  · rename_i hname
    obtain ⟨d, e, hd, he, hde⟩ := h name ((Route.resolves hroute).mem_names_iff.mp hname)
    rw [declaredDefinition_of_ofValue hd, declaredDefinition_of_ofValue he,
      (hR d e hde).isWritable_eq]
    split
    · exact .some hde
    · exact .none
  · exact .none

/-- The two compiled templates have the same pattern and slots, and definitions that are related. -/
structure Compiled.Related (R : Definition Value → Definition Value → Prop) (c c' : Compiled) :
    Prop where
  pattern_eq : c.pattern = c'.pattern
  slots_eq : c.slots = c'.slots
  definitions : ∀ name, Option.Rel R (c.definitions.get? name) (c'.definitions.get? name)

/-- A template compiles to the same pattern and slots, or fails in the same way, under declarations
that give its parameters definitions that capture alike. -/
theorem Compiled.rel_ofTemplate (hR : ∀ d e, R d e → d.CapturesAlike e)
    (h : ∀ name, Mentions template name →
      Declarations.GiveRelated R declarations declarations' name) :
    Except.Rel Eq (Compiled.Related R) (Compiled.ofTemplate template declarations options).outcome
      (Compiled.ofTemplate template declarations' options).outcome := by
  rw [Compiled.ofTemplate, Compiled.ofTemplate]
  split
  · exact .ok ⟨rfl, rfl, fun _ => .none⟩
  · rw [Run.outcome_bind, Run.outcome_bind]
    exact (Route.rel_ofTemplate hR h).bind fun _ _ hroute =>
      .ok ⟨congrArg some hroute.1, hroute.2.1, hroute.2.2⟩

/-- A template that compiles under some declarations compiles alike under others that give its
parameters definitions that act alike. -/
theorem Compiled.exists_alike {compiled : Compiled}
    (h : (Compiled.ofTemplate template declarations options).outcome = .ok compiled)
    (halike : ∀ slot ∈ compiled.slots, declarations.GiveAlike declarations' slot.name) :
    ∃ compiled', (Compiled.ofTemplate template declarations' options).outcome = .ok compiled' ∧
      compiled.Related Definition.Alike compiled' := by
  have hrel := @Compiled.rel_ofTemplate declarations declarations' Definition.Alike template options
    (fun _ _ hde => hde.capturesAlike) fun name hname => by
      obtain ⟨slot, hslot, rfl⟩ := (Compiled.exists_slot_iff_mentions h).mpr hname
      exact halike slot hslot
  rw [h] at hrel
  generalize (Compiled.ofTemplate template declarations' options).outcome = outcome' at hrel ⊢
  cases hrel with
  | ok hrelated => exact ⟨_, rfl, hrelated⟩

end Compiled

/-! ## Values -/

section Values

variable {definitions definitions' : Definitions}

/-- Conversion reads the type of a definition and nothing else. -/
theorem convert_congr {R : Definition Value → Definition Value → Prop}
    (hR : ∀ d e, R d e → d.type = e.type)
    (h : ∀ name, Option.Rel R (definitions.get? name) (definitions'.get? name)) (params : Params) :
    Params.convert definitions params = Params.convert definitions' params := by
  have hconvertFor (name : String) (v : Value) :
      convertFor definitions name v = convertFor definitions' name v := by
    rw [convertFor, convertFor]
    have hdefinition := h name
    generalize definitions.get? name = d at hdefinition ⊢
    generalize definitions'.get? name = e at hdefinition ⊢
    cases hdefinition with
    | none => rfl
    | some hde => exact congrArg v.convertTo (hR _ _ hde)
  induction params with
  | nil => rfl
  | cons entry params ih =>
    obtain ⟨name, v⟩ := entry
    rw [convert_cons, convert_cons, hconvertFor, ih]

theorem collectErrors_congr
    (h : ∀ name, Option.Rel Definition.Alike (definitions.get? name) (definitions'.get? name))
    (params : Params) : collectErrors definitions params = collectErrors definitions' params := by
  induction params with
  | nil => rfl
  | cons entry params ih =>
    obtain ⟨name, v⟩ := entry
    rw [collectErrors, collectErrors, ih]
    have hdefinition := h name
    generalize definitions.get? name = d at hdefinition ⊢
    generalize definitions'.get? name = e at hdefinition ⊢
    cases hdefinition with
    | none => rfl
    | some hde => simp only [hde.rulesNamedBy_eq]

end Values

/-! ## Matches -/

namespace Matcher

variable {m m' : Matcher} (hm : m.collaborators = .standard) (hm' : m'.collaborators = .standard)

include hm hm'

/-- Matchers with the same pattern whose definitions have the same types take every path apart
alike. -/
theorem outcome_takeApart_congr {R : Definition Value → Definition Value → Prop}
    (hR : ∀ d e, R d e → d.type = e.type) (h : m.compiled.Related R m'.compiled) (path : String) :
    (m.takeApart path).outcome = (m'.takeApart path).outcome := by
  cases hpattern : m.compiled.pattern with
  | none =>
    rw [outcome_takeApart_of_universal hpattern,
      outcome_takeApart_of_universal (h.pattern_eq.symm.trans hpattern)]
  | some pattern =>
    rw [outcome_takeApart_of_pattern hpattern,
      outcome_takeApart_of_pattern (h.pattern_eq.symm.trans hpattern), h.slots_eq, hm, hm']
    have hsanitizer (captured : Params) :
        (standardSanitizer captured m.compiled.definitions).outcome =
          (standardSanitizer captured m'.compiled.definitions).outcome :=
      convert_congr hR h.definitions captured
    simp only [Collaborators.chosenSanitizer, Collaborators.standard, Option.getD_none, hsanitizer]

/-- Matchers of templates that are compiled alike match every path alike. -/
theorem outcome_match?_congr (h : m.compiled.Related Definition.Alike m'.compiled)
    (path : String) : (m.match? path).outcome = (m'.match? path).outcome := by
  have htake := outcome_takeApart_congr hm hm' (fun _ _ hde => hde.type_eq) h path
  rw [match?, match?, hm, hm']
  refine outcome_matchWith_congr htake fun matched params _ => ?_
  have hverdict : Verdict.ofParams params m.compiled.definitions =
      Verdict.ofParams params m'.compiled.definitions := by
    rw [Verdict.ofParams, Verdict.ofParams, collectErrors_congr h.definitions]
  exact congrArg (Except.map Verdict.conforms) hverdict

end Matcher

end RouteTemplate
