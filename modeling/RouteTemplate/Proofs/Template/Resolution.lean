/-
# What the references of a template resolve to

A reference resolves to the definition that the declarations give under its decoded name. What was
resolved under a name before is only reused, so the result does not depend on the order in which
references to the same parameter stand.

## Main definitions

* `Resolves` — the parts and slots that belong to the pieces of a template
* `bodyText` — the part of a template that must match, without the slash that may be left out

## Main results

* `resolves_of_resolvePieces`, `Resolves.resolvePieces_eq` — resolving gives exactly the parts and
  slots that belong to the pieces
* `Route.resolves_required` — the required parts of a route belong to the pieces of the body
* `Route.get?_definitions` — the definitions are those of the parameters referred to
-/

import RouteTemplate.Proofs.Except
import RouteTemplate.Proofs.Template.Scan
import RouteTemplate.Proofs.Text.PercentDecoding

namespace RouteTemplate.Template

/-- What a description gives is what is declared, if the members of its enumeration have texts. -/
theorem declaredDefinition_of_ofValue {declarations : Declarations} {name : String}
    {definition : Definition Value}
    (h : Definition.ofValue name (declarations.describe name) = .ok definition) :
    declaredDefinition declarations name =
      if definition.isWritable then .ok definition else .error .integerTooLong := by
  rw [declaredDefinition, h]
  rfl

theorem declaredDefinition_eq_ok_iff {declarations : Declarations} {name : String}
    {definition : Definition Value} :
    declaredDefinition declarations name = .ok definition ↔
      Definition.ofValue name (declarations.describe name) = .ok definition ∧
        definition.isWritable := by
  rw [declaredDefinition, Except.bind_eq_ok_iff]
  constructor
  · rintro ⟨resolved, hresolved, h⟩
    split at h
    · rename_i hwritable
      obtain rfl := Except.ok.inj h
      exact ⟨hresolved, hwritable⟩
    · exact nomatch h
  · rintro ⟨h, hwritable⟩
    exact ⟨definition, h, if_pos hwritable⟩

/-- The slot of a reference to the parameter of the given name. -/
def Reference.slot (r : Reference) (name : String) : Slot :=
  ⟨name, r.lead.getD '/', r.expand⟩

/-- The name of the parameter that a reference refers to is the given one, and declarations give
the parameter this definition. -/
def Reference.RefersTo (declarations : Declarations) (r : Reference) (name : String)
    (definition : Definition Value) : Prop :=
  Text.percentDecode? (String.ofList r.rawName) = some name ∧
    declaredDefinition declarations name = .ok definition

/-- A reference refers to one parameter, of one definition. -/
theorem Reference.RefersTo.eq {declarations : Declarations} {r : Reference} {name name' : String}
    {definition definition' : Definition Value} (h : r.RefersTo declarations name definition)
    (h' : r.RefersTo declarations name' definition') : name = name' ∧ definition = definition' := by
  obtain rfl := Option.some.inj (h.1.symm.trans h'.1)
  exact ⟨rfl, Except.ok.inj (h.2.symm.trans h'.2)⟩

/-- The definition is the one that the description of the parameter gives. -/
theorem Reference.RefersTo.ofValue_eq {declarations : Declarations} {r : Reference} {name : String}
    {definition : Definition Value} (h : r.RefersTo declarations name definition) :
    Definition.ofValue name (declarations.describe name) = .ok definition :=
  (declaredDefinition_eq_ok_iff.mp h.2).1

/-- The parts and the slots that belong to pieces under declarations. -/
inductive Resolves (declarations : Declarations) : List Piece → List Part → List Slot → Prop
  | nil : Resolves declarations [] [] []
  | special (c : Char) {pieces parts slots} : Resolves declarations pieces parts slots →
      Resolves declarations (.special c :: pieces) (.special c :: parts) slots
  | plain (c : Char) {pieces parts slots} : Resolves declarations pieces parts slots →
      Resolves declarations (.plain c :: pieces) (.plain c :: parts) slots
  | reference {r : Reference} {name definition pieces parts slots} :
      r.RefersTo declarations name definition → Resolves declarations pieces parts slots →
      Resolves declarations (.reference r :: pieces)
        (.reference r.lead r.expand definition :: parts) (r.slot name :: slots)

variable {declarations : Declarations}

/-- The definitions are those that the declarations give. -/
def Agree (declarations : Declarations) (definitions : Fields (Definition Value)) : Prop :=
  ∀ name definition, definitions.get? name = some definition →
    declaredDefinition declarations name = .ok definition

theorem agree_nil (declarations : Declarations) : Agree declarations [] := by
  intro _ _ hget
  simp at hget

/-- A definition that the declarations give may be put under its name. -/
theorem agree_put {used : Fields (Definition Value)} {name : String}
    {definition : Definition Value} (hused : Agree declarations used)
    (h : declaredDefinition declarations name = .ok definition) :
    Agree declarations (used.put name definition) := by
  intro other definition' hget
  rw [Fields.get?_put] at hget
  split at hget
  · rename_i hname
    subst hname
    exact h.trans (congrArg Except.ok (Option.some.inj hget))
  · exact hused other definition' hget

/-- What has been resolved before is what would be resolved again. -/
theorem definitionFor_eq {used : Fields (Definition Value)}
    (hused : Agree declarations used) (name : String) :
    definitionFor declarations name used = declaredDefinition declarations name := by
  rw [definitionFor]
  cases h : used.get? name with
  | none => rfl
  | some definition => exact (hused name definition h).symm

/-- What the rest of a template refers to is extended by one piece. -/
private theorem exists_pure_iff {result : Except Fault Contents} {extend : Contents → Contents}
    {contents : Contents} :
    (∃ rest, result = .ok rest ∧ (pure (extend rest) : Except Fault Contents) = .ok contents) ↔
      ∃ rest, result = .ok rest ∧ contents = extend rest := by
  refine exists_congr fun rest => and_congr_right fun _ => ?_
  exact (Iff.of_eq (Except.ok.injEq _ _)).trans eq_comm

/-- Resolving a single character resolves what follows. -/
theorem resolvePieces_literal {used : Fields (Definition Value)} {pieces : List Piece}
    {contents : Contents} (part : Part) :
    (resolvePieces declarations pieces used >>= fun rest =>
        (pure { rest with parts := part :: rest.parts } : Except Fault Contents)) = .ok contents ↔
      ∃ rest, resolvePieces declarations pieces used = .ok rest ∧
        contents = ⟨part :: rest.parts, rest.slots, rest.definitions⟩ :=
  Except.bind_eq_ok_iff.trans exists_pure_iff

/-- Resolving a reference resolves its name, then its definition, then what follows. -/
theorem resolvePieces_reference {r : Reference} {pieces : List Piece}
    {used : Fields (Definition Value)} (hused : Agree declarations used) {contents : Contents} :
    resolvePieces declarations (.reference r :: pieces) used = .ok contents ↔
      ∃ name definition, r.RefersTo declarations name definition ∧
        ∃ rest, resolvePieces declarations pieces (used.put name definition) = .ok rest ∧
        contents = ⟨.reference r.lead r.expand definition :: rest.parts,
          r.slot name :: rest.slots, rest.definitions⟩ := by
  simp only [resolvePieces, Except.bind_eq_ok_iff, decodeText_eq_ok_iff, definitionFor_eq hused,
    Reference.RefersTo, and_assoc, exists_and_left]
  refine exists_congr fun name => and_congr_right fun _ => ?_
  refine exists_congr fun definition => and_congr_right fun _ => ?_
  exact exists_pure_iff

/-- Parts and slots that belong to the pieces are what resolving gives. -/
theorem Resolves.resolvePieces_eq {pieces : List Piece} {parts : List Part} {slots : List Slot}
    (h : Resolves declarations pieces parts slots) {used : Fields (Definition Value)}
    (hused : Agree declarations used) :
    ∃ definitions, resolvePieces declarations pieces used = .ok ⟨parts, slots, definitions⟩ := by
  -- What was resolved before agrees with the declarations, so reusing it changes nothing.
  induction h generalizing used with
  | nil => exact ⟨used, rfl⟩
  | special c _ ih =>
    obtain ⟨definitions, hrest⟩ := ih hused
    exact ⟨definitions, (resolvePieces_literal (.special c)).mpr ⟨_, hrest, rfl⟩⟩
  | plain c _ ih =>
    obtain ⟨definitions, hrest⟩ := ih hused
    exact ⟨definitions, (resolvePieces_literal (.plain c)).mpr ⟨_, hrest, rfl⟩⟩
  | reference hrefers _ ih =>
    obtain ⟨definitions, hrest⟩ := ih (agree_put hused hrefers.2)
    exact ⟨definitions, (resolvePieces_reference hused).mpr ⟨_, _, hrefers, _, hrest, rfl⟩⟩

/-- What resolving gives belongs to the pieces, and the definitions are those of the parameters
referred to, besides the ones resolved before. -/
theorem resolves_of_resolvePieces {pieces : List Piece} {used : Fields (Definition Value)}
    (hused : Agree declarations used) {contents : Contents}
    (h : resolvePieces declarations pieces used = .ok contents) :
    Resolves declarations pieces contents.parts contents.slots ∧
      ∀ name, contents.definitions.get? name =
        if name ∈ contents.slots.map Slot.name then
          (declaredDefinition declarations name).toOption
        else used.get? name := by
  induction pieces generalizing used contents with
  | nil =>
    obtain rfl := Except.ok.inj h
    exact ⟨.nil, fun name => by simp⟩
  | cons piece pieces ih =>
    cases piece with
    | special c =>
      obtain ⟨rest, hrest, rfl⟩ := (resolvePieces_literal (.special c)).mp h
      obtain ⟨hresolves, hget⟩ := ih hused hrest
      exact ⟨.special c hresolves, hget⟩
    | plain c =>
      obtain ⟨rest, hrest, rfl⟩ := (resolvePieces_literal (.plain c)).mp h
      obtain ⟨hresolves, hget⟩ := ih hused hrest
      exact ⟨.plain c hresolves, hget⟩
    | reference r =>
      obtain ⟨name, definition, hrefers, rest, hrest, rfl⟩ :=
        (resolvePieces_reference hused).mp h
      obtain ⟨hresolves, hget⟩ := ih (agree_put hused hrefers.2) hrest
      refine ⟨.reference hrefers hresolves, fun other => ?_⟩
      have hname : (r.slot name).name = name := rfl
      simp only [hget, Fields.get?_put, List.map_cons, List.mem_cons, hname]
      -- A name that comes up again later keeps the definition it has here.
      by_cases hother : other = name
      · subst hother
        simp [hrefers.2, Except.toOption]
      · simp [hother]

/-! ## The body of a route -/

/-- The part of a template that must match: unless the match is strict, a slash that ends the
template is left to what may follow. -/
def bodyText (template : List Char) (options : Options) : List Char :=
  if !options.strict && template.getLast? == some '/' then template.dropLast else template

/-- The parts of pieces that end with a special character end with that character. -/
theorem resolves_concat_special {c : Char} {pieces : List Piece} {parts : List Part}
    {slots : List Slot} (h : Resolves declarations (pieces ++ [.special c]) parts slots) :
    parts = parts.dropLast ++ [.special c] ∧ Resolves declarations pieces parts.dropLast slots := by
  induction pieces generalizing parts slots with
  | nil =>
    cases h with
    | special c hrest =>
      cases hrest
      exact ⟨rfl, .nil⟩
  | cons piece pieces ih =>
    have hcons {part : Part} {parts : List Part} (hparts : parts = parts.dropLast ++ [.special c]) :
        (part :: parts).dropLast = part :: parts.dropLast :=
      List.dropLast_cons_of_ne_nil (by rw [hparts]; simp)
    cases h with
    | special d hrest =>
      obtain ⟨hparts, hresolves⟩ := ih hrest
      rw [hcons hparts]
      exact ⟨congrArg (_ :: ·) hparts, .special d hresolves⟩
    | plain d hrest =>
      obtain ⟨hparts, hresolves⟩ := ih hrest
      rw [hcons hparts]
      exact ⟨congrArg (_ :: ·) hparts, .plain d hresolves⟩
    | reference hrefers hrest =>
      obtain ⟨hparts, hresolves⟩ := ih hrest
      rw [hcons hparts]
      exact ⟨congrArg (_ :: ·) hparts, .reference hrefers hresolves⟩

namespace Route

variable {template : String} {options : Options} {route : Route} {contents : Contents}

/-- A route has the parts of the template, whether it ends with a slash, and the options. -/
theorem ofTemplate_eq_ok_iff :
    ofTemplate template declarations options = .ok (route, contents) ↔
      resolvePieces declarations (scan template.toList) [] = .ok contents ∧
        route = ⟨contents.parts, template.toList.getLast? == some '/', options⟩ := by
  simp only [ofTemplate, Except.bind_eq_ok_iff]
  constructor
  · rintro ⟨_, hcontents, heq⟩
    obtain ⟨rfl, rfl⟩ := Prod.mk.inj (Except.ok.inj heq)
    exact ⟨hcontents, rfl⟩
  · rintro ⟨hcontents, rfl⟩
    exact ⟨contents, hcontents, rfl⟩

/-- The parts and the slots of a route belong to the pieces of its template. -/
theorem resolves (h : ofTemplate template declarations options = .ok (route, contents)) :
    Resolves declarations (scan template.toList) contents.parts contents.slots :=
  (resolves_of_resolvePieces (agree_nil declarations) (ofTemplate_eq_ok_iff.mp h).1).1

/-- The required parts of a route belong to the pieces of the body of its template. -/
theorem resolves_required (h : ofTemplate template declarations options = .ok (route, contents)) :
    Resolves declarations (scan (bodyText template.toList options)) route.required
      contents.slots := by
  have hresolves := resolves h
  obtain ⟨-, rfl⟩ := ofTemplate_eq_ok_iff.mp h
  rw [required, bodyText]
  split
  · rename_i hslash
    -- The slash that is dropped is a piece of its own, and so is its part.
    obtain ⟨-, hlast⟩ := Bool.and_eq_true _ _ |>.mp hslash
    obtain ⟨body, hbody⟩ := List.getLast?_eq_some_iff.mp (beq_iff_eq.mp hlast)
    rw [hbody, List.dropLast_concat]
    rw [hbody, scan_concat_slash] at hresolves
    exact (resolves_concat_special hresolves).2
  · exact hresolves

/-- The definitions of a route are those that the declarations give to the parameters it refers
to. -/
theorem get?_definitions (h : ofTemplate template declarations options = .ok (route, contents))
    (name : String) :
    contents.definitions.get? name =
      if name ∈ contents.slots.map Slot.name then
        (declaredDefinition declarations name).toOption
      else none := by
  obtain ⟨hcontents, -⟩ := ofTemplate_eq_ok_iff.mp h
  exact (resolves_of_resolvePieces (agree_nil declarations) hcontents).2 name

end Route

end RouteTemplate.Template
