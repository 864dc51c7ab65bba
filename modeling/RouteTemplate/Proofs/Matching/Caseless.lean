/-
# Matching without regard to case

When the case of letters does not count, it counts nowhere in a match, unless a definition has an
enumeration or a pattern. On two paths that differ in the case of letters of ASCII alone a matcher
with the standard collaborators does the same: the references take alike texts, which are decoded
and converted to values that are alike, on which there is one verdict.

## Main definitions

* `Matcher.ResultLike` — results that differ in case alone

## Main results

* `rel_firstUnderName`, `rel_decodeAll`, `exists_convert_of_rel` — one stage after another
* `Matcher.rel_takeApart` — two paths are taken apart alike
* `Matcher.rel_match?` — two paths are matched alike
-/

import RouteTemplate.Proofs.Checking.Admission
import RouteTemplate.Proofs.Checking.Caseless
import RouteTemplate.Proofs.Matching.Calls

namespace RouteTemplate

open Template

variable {sensitive : Bool}

/-! ## Stages -/

/-- The first captures of two paths are related as the captures under each reference are. -/
theorem rel_firstUnderName {R : String → Option String → Option String → Prop}
    {S : Option String → Option String → Prop} {slots : List Slot}
    {groups groups' : List (Option String)} (hgroups : List.Forall₂ S groups groups')
    (hR : ∀ slot group group', (slot, group) ∈ slots.zip groups → S group group' →
      R slot.name group group') (seen : List String) :
    Fields.Rel R (firstUnderName seen (slots.zip groups))
      (firstUnderName seen (slots.zip groups')) := by
  -- The slots are the same for both paths, so the same names have been seen at each of them.
  induction hgroups generalizing slots seen with
  | nil =>
    rw [List.zip_nil_right]
    exact .nil
  | @cons group group' groups groups' hgroup _ ih =>
    cases slots with
    | nil => exact .nil
    | cons slot slots =>
      have hrest := fun slot' group' group'' hmem =>
        hR slot' group' group'' (List.mem_cons_of_mem (slot, group) hmem)
      rw [List.zip_cons_cons, List.zip_cons_cons, firstUnderName, firstUnderName]
      split
      · exact ih hrest seen
      · exact .cons slot.name (hR slot group group' List.mem_cons_self hgroup)
          (ih hrest (slot.name :: seen))

/-- Captures that are decoded alike one by one are decoded alike. -/
theorem rel_decodeAll {E : Fault → Fault → Prop} {R : String → Value → Value → Prop}
    {captures captures' : List (String × Option String)}
    (h : Fields.Rel (fun name group group' =>
      Except.Rel E (R name) (decodeGroup group) (decodeGroup group')) captures captures') :
    Except.Rel E (Fields.Rel R) (decodeAll captures) (decodeAll captures') := by
  induction h with
  | nil => exact .ok .nil
  | cons name hgroup _ ih =>
    -- A fault of this capture ends both, and comes before any fault of the later ones.
    rw [decodeAll, decodeAll]
    exact hgroup.bind fun v v' hv => ih.bind fun rest rest' hrest => .ok (.cons name hv hrest)

/-- Values that are converted alike one by one are converted alike. -/
theorem exists_convert_of_rel {definitions : Definitions} {params params' : Params}
    (h : Fields.Rel (fun name v v' => ∃ definition, definitions.get? name = some definition ∧
      Value.ConvertAlike sensitive definition.type v v') params params') :
    ∃ converted converted', Params.convert definitions params = .ok converted ∧
      Params.convert definitions params' = .ok converted' ∧
      Params.Like sensitive definitions converted converted' := by
  induction h with
  | nil => exact ⟨[], [], rfl, rfl, .nil⟩
  | cons name hv _ ih =>
    obtain ⟨definition, hdefinition, w, w', hw, hw', hlike⟩ := hv
    obtain ⟨converted, converted', hconvert, hconvert', hrest⟩ := ih
    refine ⟨(name, w) :: converted, (name, w') :: converted', ?_, ?_,
      .cons name ⟨Option.isSome_of_eq_some hdefinition, hlike⟩ hrest⟩
    · rw [convert_cons, convertFor, hdefinition, hconvert]
      simp only [hw]
      rfl
    · rw [convert_cons, convertFor, hdefinition, hconvert']
      simp only [hw']
      rfl

/-! ## Matching -/

namespace Matcher

variable {m : Matcher} {template : String} {parameters : Value} {given : Options.Given}
  {path path' : String}

/-- Results of matching that differ in the case of ASCII letters alone. Values are the same, but for
those of strings. -/
structure ResultLike (m : Matcher) (result result' : Match) : Prop where
  path : IsLike false result.path result'.path
  length_eq : result.path.length = result'.path.length
  params : Fields.Rel (fun name v v' => Value.Like false v v' ∧
    ∃ definition, m.compiled.definitions.get? name = some definition ∧
      (definition.type ≠ .string → v = v')) result.params result'.params

/-- What the groups of alike matches give is decoded and converted alike. -/
theorem rel_decodeAll_firstCaptures
    (hm : (ofTemplate template parameters given .standard).outcome = .ok m)
    (henum : ∀ name definition, m.compiled.definitions.get? name = some definition →
      definition.constraints.enum = none)
    {pattern : Pattern} (hpattern : m.compiled.pattern = some pattern) {found found' : Found}
    (hfound : pattern.find? m.compiled.slots.length path = some found)
    (hlike : FoundLike m.options.sensitive found found') :
    Except.Rel (FaultLike m.options.sensitive)
      (Fields.Rel fun name v v' => ∃ definition,
        m.compiled.definitions.get? name = some definition ∧
          Value.ConvertAlike m.options.sensitive definition.type v v')
      (decodeAll (m.firstCaptures found)) (decodeAll (m.firstCaptures found')) := by
  obtain ⟨declarations, options, compiled, -, -, hcompiled, rfl⟩ := exists_of_ofTemplate hm
  refine rel_decodeAll
    (rel_firstUnderName hlike.groups (fun slot group group' hmem hgroup => ?_) [])
  obtain ⟨definition, expand, lead, hdefinition, hlanguage⟩ :=
    Compiled.exists_definition hcompiled hpattern hfound hmem
  exact (Definition.rel_decodeGroup (henum _ definition hdefinition) hlanguage hgroup).imp
    fun v v' hconvert => ⟨definition, hdefinition, hconvert⟩

/-- Paths that differ in case are taken apart alike. -/
theorem rel_takeApart (hm : (ofTemplate template parameters given .standard).outcome = .ok m)
    (henum : ∀ name definition, m.compiled.definitions.get? name = some definition →
      definition.constraints.enum = none)
    (hlike : IsLike m.options.sensitive path path') :
    Except.Rel (FaultLike m.options.sensitive)
      (Option.Rel fun taken taken' => IsLike m.options.sensitive taken.1 taken'.1 ∧
        Params.Like m.options.sensitive m.compiled.definitions taken.2 taken'.2)
      (m.takeApart path).outcome (m.takeApart path').outcome := by
  cases hpattern : m.compiled.pattern with
  | none =>
    -- What matches every path takes nothing from it.
    rw [outcome_takeApart_of_universal hpattern, outcome_takeApart_of_universal hpattern]
    exact .ok (.some ⟨.nil, .nil⟩)
  | some pattern =>
    have hfind : Option.Rel (FoundLike m.options.sensitive)
        (pattern.find? m.compiled.slots.length path)
        (pattern.find? m.compiled.slots.length path') := by
      obtain ⟨declarations, options, compiled, -, -, hcompiled, rfl⟩ := exists_of_ofTemplate hm
      obtain ⟨route, contents, hroute, rfl, -⟩ := Compiled.exists_route hcompiled hpattern
      obtain ⟨rfl, -⟩ := Route.options_of_ofTemplate hroute
      exact route.rel_find? _ hlike
    rw [outcome_takeApart_of_pattern hpattern, outcome_takeApart_of_pattern hpattern]
    generalize hfound : pattern.find? m.compiled.slots.length path = found at hfind ⊢
    generalize pattern.find? m.compiled.slots.length path' = found' at hfind ⊢
    cases hfind with
    | none => exact .ok .none
    | @some found found' hlike =>
      simp only [captureParams_nil]
      refine (rel_decodeAll_firstCaptures hm henum hpattern hfound hlike).bind
        fun params params' hparams => ?_
      obtain ⟨converted, converted', hconvert, hconvert', hrel⟩ := exists_convert_of_rel hparams
      have hsanitizer (params : Params) :
          (m.collaborators.chosenSanitizer params m.compiled.definitions).outcome =
            Params.convert m.compiled.definitions params := by
        rw [collaborators_of_ofTemplate hm]
        rfl
      rw [hsanitizer, hsanitizer, hconvert, hconvert']
      exact .ok (.some ⟨hlike.path, hrel⟩)

/-- A path matches when it is taken apart into values that conform. -/
theorem outcome_match?_of_standard (hm : m.collaborators = .standard) (path : String) :
    (m.match? path).outcome = (m.takeApart path).outcome >>= fun taken =>
      taken.elim (.ok none) fun (matched, params) =>
        (Verdict.ofParams params m.compiled.definitions).map (resultFor matched params) := by
  have hvalidator : m.collaborators.chosenValidator = standardValidator := by
    rw [hm]
    rfl
  rw [match?, hvalidator]
  cases htake : (m.takeApart path).outcome with
  | error fault =>
    rw [matchWith, Run.outcome_bind, htake]
    rfl
  | ok taken =>
    cases taken with
    | none =>
      rw [matchWith, Run.outcome_bind, htake]
      rfl
    | some taken => exact (leaves_matchWith ⟨rfl, htake⟩ (Run.leaves_ofExcept _)).2

/-- Of values that conform, only those of strings are texts. -/
theorem resultLike_of_conforms {result result' : Match} {verdict : Verdict}
    (hpath : IsLike false result.path result'.path)
    (hparams : Params.Like false m.compiled.definitions result.params result'.params)
    (hverdict : Verdict.ofParams result.params m.compiled.definitions = .ok verdict)
    (hconforms : verdict.conforms = true) : m.ResultLike result result' := by
  refine ⟨hpath, hpath.length_eq, hparams.imp_of_mem ?_⟩
  rintro name v v' hmem ⟨hdefined, hlike⟩
  obtain ⟨definition, hdefinition⟩ := Option.isSome_iff_exists.mp hdefined
  refine ⟨hlike, definition, hdefinition, fun htype => ?_⟩
  cases hlike with
  | refl => rfl
  | @text s t _ =>
    -- A text that has not been converted is of no other type, and would have been rejected.
    rcases Verdict.admits_of_conforms hverdict hconforms hmem hdefinition with
      ⟨hnull, -⟩ | ⟨-, hadmits⟩
    · exact absurd hnull (by simp)
    · have hofType := hadmits.ofType
      cases hkind : definition.type with
      | string => exact absurd hkind htype
      | _ => exact absurd (hkind ▸ hofType) (by simp [Value.IsOfType])

/-- When the case of letters does not count, and no parameter has an enumeration or a pattern, paths
that differ in the case of ASCII letters alone are matched alike: neither of them matches, or both
with results that differ in this way, or both fail for the same reason. -/
theorem rel_match? (hm : (ofTemplate template parameters given .standard).outcome = .ok m)
    (hsensitive : m.options.sensitive = false)
    (hcaseless : ∀ name definition, m.compiled.definitions.get? name = some definition →
      definition.IsCaseless)
    (hlike : IsLike false path path') :
    Except.Rel (FaultLike false) (Option.Rel m.ResultLike) (m.match? path).outcome
      (m.match? path').outcome := by
  have hstandard := collaborators_of_ofTemplate hm
  have htaken := rel_takeApart hm (fun name definition h => (hcaseless name definition h).1)
    (hsensitive ▸ hlike)
  rw [hsensitive] at htaken
  rw [outcome_match?_of_standard hstandard, outcome_match?_of_standard hstandard]
  refine htaken.bind fun taken taken' h => ?_
  cases h with
  | none => exact .ok .none
  | @some taken taken' h =>
    obtain ⟨hpath, hparams⟩ := h
    -- Checking sees no more of a text than its length, so there is one verdict for both paths.
    have hverdicts : Verdict.ofParams taken.2 m.compiled.definitions =
        Verdict.ofParams taken'.2 m.compiled.definitions :=
      Verdict.ofParams_congr hcaseless hparams
    simp only [Option.elim_some, ← hverdicts]
    cases hverdict : Verdict.ofParams taken.2 m.compiled.definitions with
    | error fault => exact .error (.refl fault)
    | ok verdict =>
      simp only [Except.map, resultFor]
      cases hconforms : verdict.conforms with
      | false => exact .ok .none
      | true => exact .ok (.some (resultLike_of_conforms hpath hparams hverdict hconforms))

/-- Nothing in a path tells the cases of letters apart: neither the letters of the template, nor a
truth value, nor the digits of an escape. -/
theorem rel_match?_of_mixed_case :
    ∃ m, (ofTemplate "/Files/{b}/{s}" (.mapping [("b", .mapping [("type", .text "boolean")])]) .none
        .standard).outcome = .ok m ∧ m.options.sensitive = false ∧
      IsLike false "/files/TRUE/%6bA" "/FILES/true/%6Ba" ∧
      (m.match? "/files/TRUE/%6bA").outcome =
        .ok (some ⟨"/files/TRUE/%6bA", [("b", .bool true), ("s", .text "kA")]⟩) ∧
      Except.Rel (FaultLike false) (Option.Rel m.ResultLike) (m.match? "/files/TRUE/%6bA").outcome
        (m.match? "/FILES/true/%6Ba").outcome := by
  have hmatcher : ∃ m, (ofTemplate "/Files/{b}/{s}"
        (.mapping [("b", .mapping [("type", .text "boolean")])]) .none .standard).outcome = .ok m ∧
      m.options.sensitive = false ∧
      m.compiled.definitions =
        [("b", ⟨"b", .boolean, true, .none⟩), ("s", ⟨"s", .string, true, .none⟩)] ∧
      (m.match? "/files/TRUE/%6bA").outcome =
        .ok (some ⟨"/files/TRUE/%6bA", [("b", .bool true), ("s", .text "kA")]⟩) :=
    ⟨_, rfl, rfl, rfl, rfl⟩
  obtain ⟨m, hm, hsensitive, hdefinitions, hmatch⟩ := hmatcher
  have hlike : IsLike false "/files/TRUE/%6bA" "/FILES/true/%6Ba" := by decide
  refine ⟨m, hm, hsensitive, hlike, hmatch, rel_match? hm hsensitive ?_ hlike⟩
  intro name definition hget
  rw [hdefinitions] at hget
  rcases List.mem_pair.mp (Fields.mem_of_get?_eq_some hget) with h | h
  · obtain ⟨-, rfl⟩ := Prod.mk.inj h
    exact ⟨rfl, rfl⟩
  · obtain ⟨-, rfl⟩ := Prod.mk.inj h
    exact ⟨rfl, rfl⟩

end Matcher

end RouteTemplate
