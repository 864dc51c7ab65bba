/-
# Matchers and their updates

A matcher is made from a template, by itself or by a factory, or by an update of another matcher.
However it was made, it is what its template compiles to under the declarations that it holds, and
its definitions are those that these declarations give to the parameters of the template.

## Main definitions

* `Matcher.Reachable` — a matcher that is made from a template, or by a factory, and updated any
  number of times
* `Matcher.update` — the matcher that an update gives, the same one if nothing changes
* `Template.Mentions` — a template refers to a parameter

## Main results

* `Matcher.ofTemplate_of_factory` — what a factory makes
* `Matcher.Reachable.compiled_eq` — a matcher is what its template compiles to
* `Matcher.redeclare_eq_some`, `Matcher.redeclare_eq_none_iff` — how an update comes about
* `Compiled.definitionsOf_eq` — resolving the slots of a compiled template again gives the
  definitions that it has
-/

import RouteTemplate.Proofs.Matching.Capturing
import RouteTemplate.Proofs.Matching.Compilation

namespace RouteTemplate

open Template

/-! ## Declarations -/

/-- What is declared later comes before what was declared under its name. -/
theorem Declarations.describe_merge (declarations more : Declarations) (name : String) :
    Declarations.describe (Fields.merge declarations more) name =
      ((Fields.ofList more).get? name).getD (declarations.describe name) := by
  rw [describe, Fields.get?_merge]
  cases (Fields.ofList more).get? name with
  | none => rfl
  | some description => rfl

/-! ## Resolving again -/

section Resolving

variable {declarations declarations' : Declarations} {slots : List Slot}
  {definitions definitions' : Definitions}

theorem definitionsOf_cons {slot : Slot} :
    Matcher.definitionsOf declarations (slot :: slots) definitions = .ok definitions' ↔
      ∃ definition,
        Definition.ofValue slot.name (declarations.describe slot.name) = .ok definition ∧
        Matcher.definitionsOf declarations slots (definitions.put slot.name definition) =
          .ok definitions' :=
  Except.bind_eq_ok_iff

/-- Every slot has a definition, and the definitions are those that the declarations give to the
slots, besides the ones that were there before. -/
theorem get?_definitionsOf
    (h : Matcher.definitionsOf declarations slots definitions = .ok definitions') :
    (∀ slot ∈ slots, ∃ definition,
        Definition.ofValue slot.name (declarations.describe slot.name) = .ok definition) ∧
      ∀ name, definitions'.get? name =
        if name ∈ slots.map Slot.name then
          (Definition.ofValue name (declarations.describe name)).toOption
        else definitions.get? name := by
  induction slots generalizing definitions with
  | nil =>
    obtain rfl : definitions = definitions' := Except.ok.inj h
    exact ⟨by simp, by simp⟩
  | cons slot slots ih =>
    obtain ⟨definition, hdefinition, hrest⟩ := definitionsOf_cons.mp h
    obtain ⟨hslots, hget⟩ := ih hrest
    refine ⟨List.forall_mem_cons.mpr ⟨⟨definition, hdefinition⟩, hslots⟩, fun name => ?_⟩
    rw [hget, Fields.get?_put, List.map_cons]
    by_cases hname : name = slot.name
    · subst hname
      simp [hdefinition, Except.toOption]
    · simp [hname]

theorem nodup_names_definitionsOf (hnodup : (Fields.names definitions).Nodup)
    (h : Matcher.definitionsOf declarations slots definitions = .ok definitions') :
    (Fields.names definitions').Nodup := by
  induction slots generalizing definitions with
  | nil =>
    obtain rfl : definitions = definitions' := Except.ok.inj h
    exact hnodup
  | cons slot slots ih =>
    obtain ⟨definition, -, hrest⟩ := definitionsOf_cons.mp h
    exact ih (Fields.nodup_names_put hnodup slot.name definition) hrest

/-- Resolving the slots that a template has resolved to gives the same definitions, under
declarations that describe the parameters in the same way. -/
theorem definitionsOf_of_resolvePieces {pieces : List Piece}
    (hused : Agree declarations definitions) {contents : Contents}
    (h : resolvePieces declarations pieces definitions = .ok contents)
    (hsame : ∀ slot ∈ contents.slots,
      declarations'.describe slot.name = declarations.describe slot.name) :
    Matcher.definitionsOf declarations' contents.slots definitions = .ok contents.definitions := by
  induction pieces generalizing definitions contents with
  | nil =>
    obtain rfl := Except.ok.inj h
    rfl
  | cons piece pieces ih =>
    cases piece with
    | special c =>
      obtain ⟨rest, hrest, rfl⟩ := (resolvePieces_literal (.special c)).mp h
      exact @ih definitions hused rest hrest hsame
    | plain c =>
      obtain ⟨rest, hrest, rfl⟩ := (resolvePieces_literal (.plain c)).mp h
      exact @ih definitions hused rest hrest hsame
    | reference r =>
      obtain ⟨name, definition, hrefers, rest, hrest, rfl⟩ :=
        (resolvePieces_reference hused).mp h
      obtain ⟨hslot, hslots⟩ := List.forall_mem_cons.mp hsame
      refine definitionsOf_cons.mpr ⟨definition, ?_, ?_⟩
      · rw [hslot]
        exact hrefers.ofValue_eq
      · exact ih (agree_put hused hrefers.2) hrest hslots

end Resolving

/-! ## Compiled templates -/

section Compiled

variable {template : String} {declarations declarations' : Declarations} {options : Options}
  {compiled : Compiled}

/-- Resolving the slots of a compiled template again gives the definitions that it has. -/
theorem Compiled.definitionsOf_eq
    (h : (Compiled.ofTemplate template declarations options).outcome = .ok compiled)
    (hsame : ∀ slot ∈ compiled.slots,
      declarations'.describe slot.name = declarations.describe slot.name) :
    Matcher.definitionsOf declarations' compiled.slots [] = .ok compiled.definitions := by
  rcases Compiled.universal_or_exists_route h with ⟨-, rfl⟩ | ⟨route, contents, hroute, rfl⟩
  · rfl
  · obtain ⟨hcontents, -⟩ := Route.ofTemplate_eq_ok_iff.mp hroute
    exact definitionsOf_of_resolvePieces (agree_nil declarations) hcontents hsame

theorem Compiled.nodup_names_definitions
    (h : (Compiled.ofTemplate template declarations options).outcome = .ok compiled) :
    (Fields.names compiled.definitions).Nodup :=
  have hnil : (Fields.names ([] : Definitions)).Nodup := List.nodup_nil
  nodup_names_definitionsOf hnil (Compiled.definitionsOf_eq h fun _ _ => rfl)

/-- The definitions of a compiled template are those that the declarations give to its slots. -/
theorem Compiled.exists_definition_of_mem_slots
    (h : (Compiled.ofTemplate template declarations options).outcome = .ok compiled) {slot : Slot}
    (hslot : slot ∈ compiled.slots) :
    ∃ definition, compiled.definitions.get? slot.name = some definition ∧
      Definition.ofValue slot.name (declarations.describe slot.name) = .ok definition := by
  obtain ⟨hslots, hget⟩ := get?_definitionsOf (Compiled.definitionsOf_eq h fun _ _ => rfl)
  obtain ⟨definition, hdefinition⟩ := hslots slot hslot
  refine ⟨definition, ?_, hdefinition⟩
  rw [hget, if_pos (List.mem_map_of_mem hslot), hdefinition]
  rfl

/-- There are definitions under the names of the slots, and under no others. -/
theorem Compiled.mem_names_definitions_iff
    (h : (Compiled.ofTemplate template declarations options).outcome = .ok compiled)
    {name : String} :
    name ∈ Fields.names compiled.definitions ↔ ∃ slot ∈ compiled.slots, slot.name = name := by
  rw [← List.mem_map]
  constructor
  · intro hname
    by_contra hslots
    obtain ⟨-, hget⟩ := get?_definitionsOf (Compiled.definitionsOf_eq h fun _ _ => rfl)
    have hnone := hget name
    rw [if_neg hslots] at hnone
    exact (Fields.get?_eq_none_iff compiled.definitions name).mp hnone hname
  · intro hslots
    obtain ⟨slot, hslot, rfl⟩ := List.mem_map.mp hslots
    obtain ⟨definition, hget, -⟩ := Compiled.exists_definition_of_mem_slots h hslot
    exact List.mem_map.mpr ⟨_, Fields.mem_of_get?_eq_some hget, rfl⟩

/-- The template refers to a parameter of this name. -/
def Template.Mentions (template : String) (name : String) : Prop :=
  ∃ r, .reference r ∈ scan template.toList ∧
    Text.percentDecode? (String.ofList r.rawName) = some name

/-- The slots that belong to pieces are those of the references among them, under their decoded
names. -/
theorem Template.Resolves.mem_names_iff {pieces : List Piece} {parts : List Part}
    {slots : List Slot} (h : Resolves declarations pieces parts slots) {name : String} :
    name ∈ slots.map Slot.name ↔ ∃ r, .reference r ∈ pieces ∧
      Text.percentDecode? (String.ofList r.rawName) = some name := by
  induction h with
  | nil => simp
  | special c _ ih => simpa using ih
  | plain c _ ih => simpa using ih
  | @reference r own _ _ _ _ hrefers _ ih =>
    have hname : (r.slot own).name = own := rfl
    rw [List.map_cons, List.mem_cons, ih, hname]
    constructor
    · rintro (rfl | ⟨r', hmem, hdecode⟩)
      · exact ⟨r, List.mem_cons_self, hrefers.1⟩
      · exact ⟨r', List.mem_cons_of_mem _ hmem, hdecode⟩
    · rintro ⟨r', hmem, hdecode⟩
      rcases List.mem_cons.mp hmem with heq | hmem
      · obtain rfl := Piece.reference.inj heq
        exact .inl (Option.some.inj (hdecode.symm.trans hrefers.1))
      · exact .inr ⟨r', hmem, hdecode⟩

/-- Pieces belong to the same slots under all declarations. -/
theorem Template.Resolves.slots_eq {pieces : List Piece} {parts parts' : List Part}
    {slots slots' : List Slot} (h : Resolves declarations pieces parts slots)
    (h' : Resolves declarations' pieces parts' slots') : slots = slots' := by
  induction h generalizing parts' slots' with
  | nil =>
    cases h'
    rfl
  | special c _ ih =>
    cases h' with
    | special _ h' => exact ih h'
  | plain c _ ih =>
    cases h' with
    | plain _ h' => exact ih h'
  | reference hrefers _ ih =>
    cases h' with
    | reference hrefers' h' =>
      obtain rfl := Option.some.inj (hrefers.1.symm.trans hrefers'.1)
      rw [ih h']

/-- The slots of a compiled template bear the names of the parameters that it refers to. -/
theorem Compiled.exists_slot_iff_mentions
    (h : (Compiled.ofTemplate template declarations options).outcome = .ok compiled)
    {name : String} :
    (∃ slot ∈ compiled.slots, slot.name = name) ↔ Template.Mentions template name := by
  rw [← List.mem_map]
  rcases Compiled.universal_or_exists_route h with
    ⟨huniversal, rfl⟩ | ⟨route, contents, hroute, rfl⟩
  · -- A slash alone refers to nothing.
    obtain ⟨htemplate, -⟩ := Bool.and_eq_true _ _ |>.mp huniversal
    obtain rfl := beq_iff_eq.mp htemplate
    have hscan : scan "/".toList = [.special '/'] := by decide +kernel
    rw [Template.Mentions, hscan]
    simp
  · exact (Route.resolves hroute).mem_names_iff

/-- The slots of a compiled template do not depend on the declarations. -/
theorem Compiled.slots_eq {compiled' : Compiled}
    (h : (Compiled.ofTemplate template declarations options).outcome = .ok compiled)
    (h' : (Compiled.ofTemplate template declarations' options).outcome = .ok compiled') :
    compiled.slots = compiled'.slots := by
  rcases Compiled.universal_or_exists_route h with
    ⟨huniversal, rfl⟩ | ⟨route, contents, hroute, rfl⟩
  · rw [Compiled.ofTemplate, if_pos huniversal] at h'
    obtain rfl := Except.ok.inj h'
    rfl
  · rcases Compiled.universal_or_exists_route h' with
      ⟨huniversal, rfl⟩ | ⟨route', contents', hroute', rfl⟩
    · rw [Compiled.ofTemplate, if_pos huniversal] at h
      exact (congrArg Compiled.slots (Except.ok.inj h)).symm
    · exact (Route.resolves hroute).slots_eq (Route.resolves hroute')

end Compiled

/-! ## Updates -/

namespace Matcher

variable {m m' : Matcher} {more : Value}

/-- The matcher that an update gives: the same one when the update changes nothing. -/
def update (m : Matcher) (more : Value) : Run Matcher := do
  return (← m.redeclare more).getD m

/-- A matcher is made from a template, by itself or with the options of a factory, and updated any
number of times. -/
inductive Reachable : Matcher → Prop
  | ofTemplate {template : String} {parameters : Value} {given : Options.Given}
      {collaborators : Collaborators} {m : Matcher} :
      (ofTemplate template parameters given collaborators).outcome = .ok m → Reachable m
  | factory {given : Options.Given} {collaborators : Collaborators}
      {make : String → Value → Run Matcher} {template : String} {parameters : Value}
      {m : Matcher} : factory given collaborators = .ok make →
      (make template parameters).outcome = .ok m → Reachable m
  | redeclare {m m' : Matcher} {more : Value} : Reachable m →
      (m.redeclare more).outcome = .ok (some m') → Reachable m'

/-- A factory that has read its options makes the matchers that the options make. -/
theorem ofTemplate_of_factory {given : Options.Given} {collaborators : Collaborators}
    {make : String → Value → Run Matcher} (h : factory given collaborators = .ok make)
    (template : String) (parameters : Value) :
    make template parameters = ofTemplate template parameters given collaborators := by
  obtain ⟨options, hoptions, hmake⟩ := Except.bind_eq_ok_iff.mp h
  obtain rfl := Except.ok.inj hmake
  change ofTemplate template parameters (.fixed options) collaborators = _
  rw [ofTemplate, ofTemplate, hoptions]
  rfl

theorem exists_of_build {template : String} {declarations : Declarations} {options : Options}
    {collaborators : Collaborators}
    (h : (build template declarations options collaborators).outcome = .ok m) :
    ∃ compiled, (Compiled.ofTemplate template declarations options).outcome = .ok compiled ∧
      m = ⟨template, declarations, options, compiled, collaborators⟩ := by
  rw [build, Run.outcome_bind] at h
  obtain ⟨compiled, hcompiled, h⟩ := Except.bind_eq_ok_iff.mp h
  exact ⟨compiled, hcompiled, (Except.ok.inj h).symm⟩

/-- An update reads the declarations that are given, resolves the slots of the template again, and
compiles the template anew unless this gives the same definitions. -/
theorem outcome_redeclare_eq_ok_iff {updated : Option Matcher} :
    (m.redeclare more).outcome = .ok updated ↔
      ∃ declared definitions, Declarations.ofValue more = .ok declared ∧
        definitionsOf (Fields.merge m.declarations declared) m.compiled.slots [] =
          .ok definitions ∧
        if sameDefinitions definitions m.compiled.definitions then updated = none
        else ∃ m', updated = some m' ∧
          (build m.template (Fields.merge m.declarations declared) m.options
            m.collaborators).outcome = .ok m' := by
  rw [redeclare, Run.outcome_bind, Run.ofExcept]
  refine Except.bind_eq_ok_iff.trans (exists_congr fun declared => ?_)
  rw [exists_and_left]
  refine and_congr_right fun _ => ?_
  rw [Run.outcome_bind, Run.ofExcept]
  refine Except.bind_eq_ok_iff.trans (exists_congr fun definitions => and_congr_right fun _ => ?_)
  split
  · exact ⟨fun h => (Except.ok.inj h).symm, fun h => congrArg Except.ok h.symm⟩
  · rw [Run.outcome_bind]
    refine Except.bind_eq_ok_iff.trans (exists_congr fun m' => ?_)
    rw [and_comm]
    refine and_congr_left fun _ => ?_
    exact ⟨fun h => (Except.ok.inj h).symm, fun h => congrArg Except.ok h.symm⟩

/-- Another matcher comes from an update when some definition differs. It is built from the same
template with the merged declarations. -/
theorem redeclare_eq_some (h : (m.redeclare more).outcome = .ok (some m')) :
    ∃ declared compiled, Declarations.ofValue more = .ok declared ∧
      (Compiled.ofTemplate m.template (Fields.merge m.declarations declared) m.options).outcome =
        .ok compiled ∧
      m' = ⟨m.template, Fields.merge m.declarations declared, m.options, compiled,
        m.collaborators⟩ := by
  obtain ⟨declared, definitions, hdeclared, -, h⟩ := outcome_redeclare_eq_ok_iff.mp h
  split at h
  · exact absurd h (by simp)
  · obtain ⟨m'', hm'', hbuild⟩ := h
    obtain rfl := Option.some.inj hm''
    obtain ⟨compiled, hcompiled, hm'⟩ := exists_of_build hbuild
    exact ⟨declared, compiled, hdeclared, hcompiled, hm'⟩

/-- An update leaves a matcher as it is when every definition stays the same. -/
theorem redeclare_eq_none_iff :
    (m.redeclare more).outcome = .ok none ↔
      ∃ declared definitions, Declarations.ofValue more = .ok declared ∧
        definitionsOf (Fields.merge m.declarations declared) m.compiled.slots [] =
          .ok definitions ∧
        sameDefinitions definitions m.compiled.definitions = true := by
  rw [outcome_redeclare_eq_ok_iff]
  refine exists_congr fun declared => exists_congr fun definitions => ?_
  refine and_congr_right fun _ => and_congr_right fun _ => ?_
  split
  · rename_i hsame
    exact ⟨fun _ => hsame, fun _ => rfl⟩
  · rename_i hsame
    exact ⟨fun ⟨m', hm', _⟩ => absurd hm' (by simp), fun h => absurd h hsame⟩

/-- The matcher that an update gives is the same one or another one. -/
theorem update_eq_ok_iff :
    (m.update more).outcome = .ok m' ↔
      ((m.redeclare more).outcome = .ok none ∧ m' = m) ∨
        (m.redeclare more).outcome = .ok (some m') := by
  rw [update, Run.outcome_bind]
  refine Except.bind_eq_ok_iff.trans ?_
  constructor
  · rintro ⟨_ | updated, hupdated, h⟩
    · exact .inl ⟨hupdated, (Except.ok.inj h).symm⟩
    · obtain rfl : updated = m' := Except.ok.inj h
      exact .inr hupdated
  · rintro (⟨hnone, rfl⟩ | hsome)
    · exact ⟨none, hnone, rfl⟩
    · exact ⟨some m', hsome, rfl⟩

/-- However it was made, a matcher is what its template compiles to under its declarations. -/
theorem Reachable.compiled_eq (h : m.Reachable) :
    (Compiled.ofTemplate m.template m.declarations m.options).outcome = .ok m.compiled := by
  cases h with
  | ofTemplate hm =>
    obtain ⟨declarations, options, compiled, -, -, hcompiled, rfl⟩ := exists_of_ofTemplate hm
    exact hcompiled
  | factory hmake hm =>
    rw [ofTemplate_of_factory hmake] at hm
    obtain ⟨declarations, options, compiled, -, -, hcompiled, rfl⟩ := exists_of_ofTemplate hm
    exact hcompiled
  | redeclare _ hupdate =>
    obtain ⟨declared, compiled, -, hcompiled, rfl⟩ := redeclare_eq_some hupdate
    exact hcompiled

theorem Reachable.update (h : m.Reachable) (hupdate : (m.update more).outcome = .ok m') :
    m'.Reachable := by
  rcases update_eq_ok_iff.mp hupdate with ⟨-, rfl⟩ | hsome
  · exact h
  · exact .redeclare h hsome

end Matcher

end RouteTemplate
