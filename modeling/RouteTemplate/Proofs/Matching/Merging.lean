/-
# Updates in succession

An update that leaves every definition the same is dropped, and what it declares is forgotten. Since
definitions that count as the same act alike, nothing is lost by this: a matcher that is updated any
number of times matches as the one that is made with all declarations at once.

## Main definitions

* `Declarations.AreWellTyped` — all definitions that are declared are well typed
* `Matcher.Follows` — a matcher acts as one that is made with the given declarations

## Main results

* `Matcher.Follows.update`, `Matcher.Follows.foldlM_update` — updates merge their declarations
* `Matcher.match?_foldlM_update` — a matcher that is updated matches as the one that is made with
  all declarations at once
-/

import RouteTemplate.Proofs.Matching.Likeness
import RouteTemplate.Proofs.Matching.Updating

namespace RouteTemplate

/-! ## Declarations -/

namespace Declarations

variable {declarations declarations' more : Declarations} {name : String}

/-- All definitions that are declared are well typed. -/
def AreWellTyped (declarations : Declarations) : Prop :=
  ∀ entry ∈ declarations, ∀ definition,
    Definition.ofValue entry.1 entry.2 = .ok definition → definition.IsWellTyped

/-- All definitions that the declarations give to parameters are well typed. -/
def GiveWellTyped (declarations : Declarations) : Prop :=
  ∀ name definition, Definition.ofValue name (declarations.describe name) = .ok definition →
    definition.IsWellTyped

theorem AreWellTyped.giveWellTyped (h : declarations.AreWellTyped) :
    declarations.GiveWellTyped := by
  intro name definition hdefinition
  rw [describe] at hdefinition
  cases hget : Fields.get? declarations name with
  | none =>
    rw [hget] at hdefinition
    obtain rfl : .plain name = definition := Except.ok.inj hdefinition
    exact Definition.isWellTyped_plain name
  | some description =>
    rw [hget] at hdefinition
    exact h _ (Fields.mem_of_get?_eq_some hget) definition hdefinition

theorem GiveWellTyped.merge (h : declarations.GiveWellTyped) (hmore : more.AreWellTyped) :
    GiveWellTyped (Fields.merge declarations more) := by
  intro name definition hdefinition
  rw [describe_merge] at hdefinition
  cases hget : (Fields.ofList more).get? name with
  | none =>
    rw [hget] at hdefinition
    exact h name definition hdefinition
  | some description =>
    rw [hget] at hdefinition
    exact hmore _ (Fields.mem_of_get?_ofList hget) definition hdefinition

theorem GiveAlike.trans {declarations'' : Declarations}
    (h : declarations.GiveAlike declarations' name)
    (h' : declarations'.GiveAlike declarations'' name) :
    declarations.GiveAlike declarations'' name := by
  obtain ⟨c, d, hc, hd, hcd⟩ := h
  obtain ⟨d', e, hd', he, hde⟩ := h'
  obtain rfl := Except.ok.inj (hd.symm.trans hd')
  exact ⟨c, e, hc, he, hcd.trans hde⟩

/-- Declarations that give a parameter like definitions do so after the same is merged with both. -/
theorem GiveAlike.merge (h : declarations.GiveAlike declarations' name)
    {definition : Definition Value} (hdefinition : Definition.ofValue name
      (Declarations.describe (Fields.merge declarations more) name) = .ok definition) :
    Declarations.GiveAlike (Fields.merge declarations more) (Fields.merge declarations' more)
      name := by
  rw [GiveAlike, hdefinition, describe_merge]
  rw [describe_merge] at hdefinition
  cases hget : (Fields.ofList more).get? name with
  | none =>
    -- Nothing is declared anew, so the definitions are those from before.
    rw [hget] at hdefinition
    obtain ⟨d, e, hd, he, hde⟩ := h
    obtain rfl := Except.ok.inj (hd.symm.trans hdefinition)
    exact ⟨d, e, rfl, he, hde⟩
  | some description =>
    -- Both are described anew, in one way.
    rw [hget] at hdefinition
    exact ⟨definition, definition, rfl, hdefinition, .refl definition⟩

end Declarations

namespace Matcher

variable {m m' : Matcher} {more : Value}

/-! ## One update -/

/-- The matcher acts as one that is made of the template with the standard collaborators, when all
declarations are given at once. Its own declarations may be others, if updates have been dropped. -/
structure Follows (template : String) (options : Options) (whole : Declarations) (m : Matcher) :
    Prop where
  reachable : m.Reachable
  template_eq : m.template = template
  options_eq : m.options = options
  collaborators_eq : m.collaborators = .standard
  giveWellTyped : m.declarations.GiveWellTyped
  giveAlike : ∀ slot ∈ m.compiled.slots, m.declarations.GiveAlike whole slot.name

variable {template : String} {options : Options} {whole : Declarations}

/-- When an update is dropped, what the declarations of a matcher give is like what they would give
with those of the update. -/
theorem Reachable.giveAlike_merge (hm : m.Reachable)
    (htyped : m.declarations.GiveWellTyped) {declared : Declarations}
    (hdeclared : declared.AreWellTyped) {definitions : Definitions}
    (hdefinitions : definitionsOf (Fields.merge m.declarations declared) m.compiled.slots [] =
      .ok definitions) (hsame : sameDefinitions definitions m.compiled.definitions = true)
    {slot : Slot} (hslot : slot ∈ m.compiled.slots) :
    m.declarations.GiveAlike (Fields.merge m.declarations declared) slot.name := by
  obtain ⟨hresolved, hget⟩ := get?_definitionsOf hdefinitions
  obtain ⟨e, he⟩ := hresolved slot hslot
  have hget := hget slot.name
  rw [if_pos (List.mem_map_of_mem hslot), he] at hget
  obtain ⟨d, hd, hsame⟩ := exists_of_sameDefinitions hsame hget
  obtain ⟨d', hd', hbefore⟩ := Compiled.exists_definition_of_mem_slots hm.compiled_eq hslot
  obtain rfl := Option.some.inj (hd.symm.trans hd')
  have halike := Definition.alike_of_same (htyped.merge hdeclared _ _ he) (htyped _ _ hbefore) hsame
  exact ⟨d, e, hbefore, he, halike.symm⟩

/-- An update merges its declarations, also when it is dropped. -/
theorem Follows.update (h : m.Follows template options whole)
    (hupdate : (m.update more).outcome = .ok m') :
    ∃ declared, Declarations.ofValue more = .ok declared ∧
      (declared.AreWellTyped → m'.Follows template options (Fields.merge whole declared)) := by
  rcases update_eq_ok_iff.mp hupdate with ⟨hnone, rfl⟩ | hsome
  · -- The matcher stays and forgets the update, but what it gives is like what is merged.
    obtain ⟨declared, definitions, hdeclared, hdefinitions, hsame⟩ := redeclare_eq_none_iff.mp hnone
    refine ⟨declared, hdeclared, fun htyped => { h with giveAlike := fun slot hslot => ?_ }⟩
    obtain ⟨definition, hdefinition⟩ := (get?_definitionsOf hdefinitions).1 slot hslot
    exact (h.reachable.giveAlike_merge h.giveWellTyped htyped hdefinitions hsame hslot).trans
      ((h.giveAlike slot hslot).merge hdefinition)
  · -- The new matcher has declarations of its own, merged with those of the update.
    have hreachable := h.reachable.redeclare hsome
    obtain ⟨declared, compiled, hdeclared, hcompiled, rfl⟩ := redeclare_eq_some hsome
    refine ⟨declared, hdeclared, fun htyped => ?_⟩
    refine ⟨hreachable, h.template_eq, h.options_eq, h.collaborators_eq,
      h.giveWellTyped.merge htyped, fun slot hslot => ?_⟩
    obtain ⟨definition, -, hdefinition⟩ := Compiled.exists_definition_of_mem_slots hcompiled hslot
    rw [← Compiled.slots_eq h.reachable.compiled_eq hcompiled] at hslot
    exact (h.giveAlike slot hslot).merge hdefinition

/-! ## Many updates -/

/-- Updates in succession merge all their declarations. -/
theorem Follows.foldlM_update {updates : List Value} (h : m.Follows template options whole)
    (hupdates : (updates.foldlM Matcher.update m).outcome = .ok m')
    (htyped : ∀ v ∈ updates, ∀ declared, Declarations.ofValue v = .ok declared →
      declared.AreWellTyped) :
    ∃ declared, List.Forall₂ (fun v declared => Declarations.ofValue v = .ok declared)
        updates declared ∧
      m'.Follows template options (declared.foldl Fields.merge whole) := by
  induction updates generalizing m whole with
  | nil =>
    obtain rfl : m = m' := Except.ok.inj hupdates
    exact ⟨[], .nil, h⟩
  | cons more updates ih =>
    rw [List.foldlM_cons, Run.outcome_bind] at hupdates
    obtain ⟨next, hnext, hupdates⟩ := Except.bind_eq_ok_iff.mp hupdates
    obtain ⟨hmore, htyped⟩ := List.forall_mem_cons.mp htyped
    obtain ⟨declared, hdeclared, hfollows⟩ := h.update hnext
    obtain ⟨others, hothers, hfollows⟩ := ih (hfollows (hmore declared hdeclared)) hupdates htyped
    exact ⟨declared :: others, .cons hdeclared hothers, hfollows⟩

/-- A matcher acts as the one that is made with all declarations at once. -/
theorem Follows.exists_ofTemplate {given : Options.Given}
    (h : m.Follows template options whole)
    (hgiven : Options.ofGiven given = .ok options) :
    ∃ m', (ofTemplate template (.mapping whole) given .standard).outcome = .ok m' ∧
      ∀ path, (m.match? path).outcome = (m'.match? path).outcome ∧
        ∀ group, (m.matchConcurrently? path group).outcome =
          (m'.matchConcurrently? path group).outcome := by
  have hcompiled := h.reachable.compiled_eq
  rw [h.template_eq, h.options_eq] at hcompiled
  obtain ⟨compiled, hcompiled, halike⟩ := Compiled.exists_alike hcompiled h.giveAlike
  refine ⟨_, outcome_ofTemplate rfl hgiven hcompiled .standard, fun path => ?_⟩
  have hmatch := @outcome_match?_congr m ⟨template, whole, options, compiled, .standard⟩
    h.collaborators_eq rfl halike path
  refine ⟨hmatch, fun group => ?_⟩
  rw [outcome_matchConcurrently?_of_standard h.collaborators_eq, hmatch,
    outcome_matchConcurrently?_of_standard rfl]

/-- A matcher that is made from a template and updated any number of times matches every path as the
one that is made with the declarations of all updates merged, and fails with the same fault, in
either way of matching. -/
theorem match?_foldlM_update {parameters : Value} {given : Options.Given}
    {updates : List Value}
    (hm : (ofTemplate template parameters given .standard).outcome = .ok m)
    (hupdates : (updates.foldlM Matcher.update m).outcome = .ok m')
    (htyped : ∀ v ∈ parameters :: updates, ∀ declared, Declarations.ofValue v = .ok declared →
      declared.AreWellTyped) :
    ∃ declarations declared whole, Declarations.ofValue parameters = .ok declarations ∧
      List.Forall₂ (fun v declared => Declarations.ofValue v = .ok declared) updates declared ∧
      (ofTemplate template (.mapping (declared.foldl Fields.merge declarations)) given
        .standard).outcome = .ok whole ∧
      ∀ path, (m'.match? path).outcome = (whole.match? path).outcome ∧
        ∀ group, (m'.matchConcurrently? path group).outcome =
          (whole.matchConcurrently? path group).outcome := by
  obtain ⟨hparameters, htyped⟩ := List.forall_mem_cons.mp htyped
  have hreachable := Reachable.ofTemplate hm
  obtain ⟨declarations, options, compiled, hdeclarations, hgiven, hcompiled, rfl⟩ :=
    exists_of_ofTemplate hm
  have hfollows : Follows template options declarations
      ⟨template, declarations, options, compiled, .standard⟩ := by
    refine ⟨hreachable, rfl, rfl, rfl, (hparameters declarations hdeclarations).giveWellTyped,
      fun slot hslot => ?_⟩
    obtain ⟨definition, -, hdefinition⟩ := Compiled.exists_definition_of_mem_slots hcompiled hslot
    exact ⟨definition, definition, hdefinition, hdefinition, .refl definition⟩
  obtain ⟨declared, hdeclared, hfollows⟩ := hfollows.foldlM_update hupdates htyped
  obtain ⟨whole, hwhole, hmatch⟩ := hfollows.exists_ofTemplate hgiven
  exact ⟨declarations, declared, whole, hdeclarations, hdeclared, hwhole, hmatch⟩

/-- An enumeration whose number is written with a point instead counts as the same, so the update is
dropped. -/
theorem match?_foldlM_update_of_equal_numbers :
    ∃ (m : Matcher) (parameters more : Value),
      (ofTemplate "/{n}" parameters .none .standard).outcome = .ok m ∧
      (m.redeclare more).outcome = .ok none ∧
      (∀ v ∈ [parameters, more], ∀ declared, Declarations.ofValue v = .ok declared →
        declared.AreWellTyped) ∧
      ∃ declarations declared whole, Declarations.ofValue parameters = .ok declarations ∧
        List.Forall₂ (fun v declared => Declarations.ofValue v = .ok declared) [more]
          declared ∧
        (ofTemplate "/{n}" (.mapping (declared.foldl Fields.merge declarations)) .none
          .standard).outcome = .ok whole ∧
        ∀ path, (m.match? path).outcome = (whole.match? path).outcome ∧
          ∀ group, (m.matchConcurrently? path group).outcome =
            (whole.matchConcurrently? path group).outcome := by
  let described (member : Value) : Value :=
    .mapping [("type", .text "number"), ("enum", .list [member])]
  have hmatcher : ∃ m, (ofTemplate "/{n}" (.mapping [("n", described (.int 5))]) .none
        .standard).outcome = .ok m ∧
      m.declarations = [("n", described (.int 5))] ∧ m.compiled.slots = [⟨"n", '/', false⟩] ∧
      m.compiled.definitions =
        [("n", ⟨"n", .number, true, { Constraints.none with enum := some [.int 5] }⟩)] :=
    ⟨_, rfl, rfl, rfl, rfl⟩
  obtain ⟨m, hm, hdeclarations, hslots, hdefinitions⟩ := hmatcher
  let five : Value := .float (.finite false 5629499534213120 (-50))
  have hnone : (m.redeclare (.mapping [("n", described five)])).outcome = .ok none := by
    refine redeclare_eq_none_iff.mpr ⟨_, [("n", ⟨"n", .number, true,
      { Constraints.none with enum := some [five] }⟩)], rfl, ?_, ?_⟩
    · rw [hdeclarations, hslots]
      rfl
    · rw [hdefinitions]
      decide +kernel
  have hupdates : ([.mapping [("n", described five)]].foldlM Matcher.update m).outcome = .ok m := by
    rw [List.foldlM_cons, Run.outcome_bind, update_eq_ok_iff.mpr (.inl ⟨hnone, rfl⟩)]
    rfl
  have htyped (member : Value) (hmember : member.IsMember .number)
      (hdefinition : Definition.ofValue "n" (described member) =
        .ok ⟨"n", .number, true, { Constraints.none with enum := some [member] }⟩)
      (declared : Declarations)
      (hdeclared : Declarations.ofValue (.mapping [("n", described member)]) = .ok declared) :
      declared.AreWellTyped := by
    obtain rfl : [("n", described member)] = declared := Except.ok.inj hdeclared
    intro entry hentry definition hdefinition'
    obtain rfl := List.mem_singleton.mp hentry
    obtain rfl := Except.ok.inj (hdefinition.symm.trans hdefinition')
    constructor
    case enum => simpa using hmember
    all_goals simp [Constraints.none]
  have hcanonical : (Number.Binary64.finite false 5629499534213120 (-50)).IsCanonical := by
    rw [Number.Binary64.IsCanonical]
    decide
  have hfive : five.IsMember .number := .inr ⟨_, rfl, rfl, hcanonical⟩
  have htyped : ∀ v ∈ [.mapping [("n", described (.int 5))], .mapping [("n", described five)]],
      ∀ declared, Declarations.ofValue v = .ok declared → declared.AreWellTyped :=
    List.forall_mem_cons.mpr ⟨htyped _ (.inl ⟨5, rfl⟩) rfl,
      List.forall_mem_singleton.mpr (htyped five hfive rfl)⟩
  exact ⟨m, .mapping [("n", described (.int 5))], .mapping [("n", described five)], hm, hnone,
    htyped, match?_foldlM_update hm hupdates htyped⟩

end Matcher

end RouteTemplate
