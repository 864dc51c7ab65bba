/-
# Updates that change nothing

The definitions of a matcher are those that its declarations give, however often it has been
updated. So an update leaves a matcher as it is when it names no parameter of the template, or when
it has been made before.

## Main definitions

* `Declarations.AreProper` — all descriptions are proper values
* `Matcher.IsCoherent` — the definitions of a matcher are those that its declarations give

## Main results

* `Matcher.redeclare_eq_none_of_describe` — an update that describes the parameters of the template
  as before changes nothing
* `Matcher.isCoherent_and_update` — matchers are coherent, and how they answer to updates
-/

import RouteTemplate.Proofs.Matching.Reaching
import RouteTemplate.Proofs.Value.Equality

namespace RouteTemplate

/-! ## Proper declarations -/

namespace Declarations

variable {declarations more : Declarations}

/-- All descriptions are proper values. -/
def AreProper (declarations : Declarations) : Prop :=
  ∀ entry ∈ declarations, entry.2.IsProper

theorem AreProper.describe (h : declarations.AreProper) (name : String) :
    (declarations.describe name).IsProper := by
  rw [Declarations.describe]
  cases hget : Fields.get? declarations name with
  | none => exact .null
  | some description => exact Value.isProper_of_get? h hget

/-- What is described after merging is proper when all that is merged is. -/
theorem AreProper.describe_merge (h : declarations.AreProper) (hmore : more.AreProper)
    (name : String) : (Declarations.describe (Fields.merge declarations more) name).IsProper := by
  rw [Declarations.describe_merge]
  cases hget : (Fields.ofList more).get? name with
  | none => exact h.describe name
  | some description => exact hmore _ (Fields.mem_of_get?_ofList hget)

end Declarations

namespace Matcher

variable {m m' : Matcher} {more : Value}

/-- The definitions of a matcher stand under the names of its slots, each once, and are what its
declarations give to these names. -/
structure IsCoherent (m : Matcher) : Prop where
  nodup_names : (Fields.names m.compiled.definitions).Nodup
  mem_names_iff : ∀ name, name ∈ Fields.names m.compiled.definitions ↔
    ∃ slot ∈ m.compiled.slots, slot.name = name
  same : ∀ slot ∈ m.compiled.slots, ∃ definition resolved,
    m.compiled.definitions.get? slot.name = some definition ∧
      Definition.ofValue slot.name (m.declarations.describe slot.name) = .ok resolved ∧
      definition.same resolved = true

theorem Reachable.isCoherent (hm : m.Reachable)
    (hproper : ∀ slot ∈ m.compiled.slots, (m.declarations.describe slot.name).IsProper) :
    m.IsCoherent where
  nodup_names := Compiled.nodup_names_definitions hm.compiled_eq
  mem_names_iff _ := Compiled.mem_names_definitions_iff hm.compiled_eq
  same slot hslot := by
    obtain ⟨definition, hget, hdefinition⟩ :=
      Compiled.exists_definition_of_mem_slots hm.compiled_eq hslot
    exact ⟨definition, definition, hget, hdefinition,
      Definition.same_self_of_ofValue (hproper slot hslot) hdefinition⟩

/-- The definitions of a matcher with proper declarations are the same as themselves. -/
theorem Reachable.sameDefinitions_self (hm : m.Reachable)
    (hproper : ∀ slot ∈ m.compiled.slots, (m.declarations.describe slot.name).IsProper) :
    sameDefinitions m.compiled.definitions m.compiled.definitions = true := by
  refine RouteTemplate.sameDefinitions_self (Compiled.nodup_names_definitions hm.compiled_eq) ?_
  intro name definition hget
  have hname : name ∈ Fields.names m.compiled.definitions :=
    List.mem_map_of_mem (Fields.mem_of_get?_eq_some hget)
  obtain ⟨slot, hslot, rfl⟩ := (Compiled.mem_names_definitions_iff hm.compiled_eq).mp hname
  obtain ⟨_, hget', hdefinition⟩ := Compiled.exists_definition_of_mem_slots hm.compiled_eq hslot
  obtain rfl := Option.some.inj (hget.symm.trans hget')
  exact Definition.same_self_of_ofValue (hproper slot hslot) hdefinition

/-- An update that describes the parameters of the template as before changes nothing. -/
theorem redeclare_eq_none_of_describe (hm : m.Reachable)
    (hproper : ∀ slot ∈ m.compiled.slots, (m.declarations.describe slot.name).IsProper)
    {declared : Declarations} (hdeclared : Declarations.ofValue more = .ok declared)
    (hsame : ∀ slot ∈ m.compiled.slots,
      Declarations.describe (Fields.merge m.declarations declared) slot.name =
        m.declarations.describe slot.name) : (m.redeclare more).outcome = .ok none :=
  redeclare_eq_none_iff.mpr ⟨declared, m.compiled.definitions, hdeclared,
    Compiled.definitionsOf_eq hm.compiled_eq hsame, hm.sameDefinitions_self hproper⟩

/-- An update keeps the template, the options, the slots and the collaborators. -/
theorem eq_of_update (hm : m.Reachable) (hupdate : (m.update more).outcome = .ok m') :
    m'.template = m.template ∧ m'.options = m.options ∧ m'.compiled.slots = m.compiled.slots ∧
      m'.collaborators = m.collaborators := by
  rcases update_eq_ok_iff.mp hupdate with ⟨-, rfl⟩ | hsome
  · exact ⟨rfl, rfl, rfl, rfl⟩
  · obtain ⟨declared, compiled, -, hcompiled, rfl⟩ := redeclare_eq_some hsome
    exact ⟨rfl, rfl, (Compiled.slots_eq hm.compiled_eq hcompiled).symm, rfl⟩

/-- A matcher is coherent. An update leaves it as it is when it names no parameter of the template,
and when it is the one that has been made just before; every update keeps its template, its options,
its slots and its collaborators. -/
theorem isCoherent_and_update (hm : m.Reachable) (hproper : m.declarations.AreProper) :
    m.IsCoherent ∧
      (∀ more declared, Declarations.ofValue more = .ok declared →
        (∀ slot ∈ m.compiled.slots, declared.get? slot.name = none) →
          (m.redeclare more).outcome = .ok none) ∧
      (∀ more declared m', Declarations.ofValue more = .ok declared → declared.AreProper →
        (m.update more).outcome = .ok m' → (m'.redeclare more).outcome = .ok none) ∧
      ∀ more m', (m.update more).outcome = .ok m' →
        m'.template = m.template ∧ m'.options = m.options ∧
          m'.compiled.slots = m.compiled.slots ∧ m'.collaborators = m.collaborators := by
  have hdescribed (slot : Slot) (_ : slot ∈ m.compiled.slots) := hproper.describe slot.name
  refine ⟨hm.isCoherent hdescribed, ?_, ?_, fun more m' => eq_of_update hm⟩
  · intro more declared hdeclared hnone
    refine redeclare_eq_none_of_describe hm hdescribed hdeclared ?_
    intro slot hslot
    rw [Declarations.describe, Fields.get?_merge_of_get?_eq_none (hnone slot hslot)]
    rfl
  · intro more declared m' hdeclared hmore hupdate
    rcases update_eq_ok_iff.mp hupdate with ⟨hnone, rfl⟩ | hsome
    · exact hnone
    · have hm' := Reachable.redeclare hm hsome
      obtain ⟨declared', compiled, hdeclared', hcompiled, rfl⟩ := redeclare_eq_some hsome
      obtain rfl := Except.ok.inj (hdeclared.symm.trans hdeclared')
      refine redeclare_eq_none_of_describe hm' ?_ hdeclared ?_
      · exact fun slot _ => hproper.describe_merge hmore slot.name
      · intro slot _
        rw [Declarations.describe, Fields.get?_merge_merge]
        rfl

/-- The declaration of an integer with a bound is proper. -/
theorem isCoherent_and_update_of_bounded_integer :
    ∃ m : Matcher, m.Reachable ∧ m.declarations.AreProper ∧ m.IsCoherent ∧
      (∀ more declared, Declarations.ofValue more = .ok declared →
        (∀ slot ∈ m.compiled.slots, declared.get? slot.name = none) →
          (m.redeclare more).outcome = .ok none) ∧
      (∀ more declared m', Declarations.ofValue more = .ok declared → declared.AreProper →
        (m.update more).outcome = .ok m' → (m'.redeclare more).outcome = .ok none) ∧
      ∀ more m', (m.update more).outcome = .ok m' →
        m'.template = m.template ∧ m'.options = m.options ∧
          m'.compiled.slots = m.compiled.slots ∧ m'.collaborators = m.collaborators := by
  have hmatcher : ∃ m, (Matcher.ofTemplate "/{id}"
        (.mapping [("id", .mapping [("type", .text "integer"), ("minimum", .int 5)])]) .none
        .standard).outcome = .ok m ∧
      m.declarations = [("id", .mapping [("type", .text "integer"), ("minimum", .int 5)])] :=
    ⟨_, rfl, rfl⟩
  obtain ⟨m, hm, hdeclarations⟩ := hmatcher
  have hproper : m.declarations.AreProper := by
    rw [hdeclarations]
    intro entry hentry
    obtain rfl := List.mem_singleton.mp hentry
    refine .mapping (by decide) ?_
    intro field hfield
    rcases List.mem_cons.mp hfield with rfl | hfield
    · exact .text _
    · obtain rfl := List.mem_singleton.mp hfield
      exact .int _
  exact ⟨m, .ofTemplate hm, hproper, isCoherent_and_update (.ofTemplate hm) hproper⟩

end Matcher

end RouteTemplate
