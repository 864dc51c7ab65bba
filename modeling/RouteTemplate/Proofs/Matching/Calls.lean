/-
# The calls of collaborators

A matcher calls its collaborators one after another, and none of them when an earlier stage of
matching has ended it. The sanitizer gets the first text under each name, decoded; the validator, or
the check of each parameter, gets what the sanitizer gives. The calls are seen by the notes that
collaborators leave of them, and what the collaborators do is arbitrary.

## Main definitions

* `firstUnderName` — the first capture under each name
* `decodeAll` — captures, decoded one after another
* `Matcher.CallsInOrder` — which collaborators are called on a path, and what comes of it

## Main results

* `captureParams_eq_decodeAll` — the first captures are decoded in order, the others never
* `Matcher.callsInOrder` — a matcher calls its collaborators in order
-/

import RouteTemplate.Proofs.Matching.Capturing
import RouteTemplate.Proofs.Matching.Starting

namespace RouteTemplate

open Template (decodeText decodeText_eq_error_iff)

/-! ## First captures -/

/-- The first capture under each name that has not been seen. -/
def firstUnderName (seen : List String) :
    List (Slot × Option String) → List (String × Option String)
  | [] => []
  | (slot, group) :: taken =>
    if slot.name ∈ seen then firstUnderName seen taken
    else (slot.name, group) :: firstUnderName (slot.name :: seen) taken

/-- Captures, decoded one after another. -/
def decodeAll : List (String × Option String) → Except Fault Params
  | [] => .ok []
  | (name, group) :: rest => do return (name, ← decodeGroup group) :: (← decodeAll rest)

/-- The value is what the capture stands for, under the same name. -/
def IsDecoded (capture : String × Option String) (entry : String × Value) : Prop :=
  entry.1 = capture.1 ∧ decodeGroup capture.2 = .ok entry.2

theorem decodeAll_eq_ok_iff {captures : List (String × Option String)} {params : Params} :
    decodeAll captures = .ok params ↔ List.Forall₂ IsDecoded captures params := by
  induction captures generalizing params with
  | nil =>
    rw [List.forall₂_nil_left_iff, decodeAll, Except.ok.injEq, eq_comm]
  | cons capture captures ih =>
    obtain ⟨name, group⟩ := capture
    rw [decodeAll, List.forall₂_cons_left_iff]
    constructor
    · intro h
      obtain ⟨v, hv, h⟩ := Except.bind_eq_ok_iff.mp h
      obtain ⟨rest, hrest, h⟩ := Except.bind_eq_ok_iff.mp h
      exact ⟨(name, v), rest, ⟨rfl, hv⟩, ih.mp hrest, (Except.ok.inj h).symm⟩
    · rintro ⟨⟨_, v⟩, rest, ⟨rfl, hv⟩, hrest, rfl⟩
      dsimp only at hv
      rw [hv, ih.mpr hrest]
      rfl

/-- Decoding fails at the first capture that is no percent-encoding, with its text. -/
theorem decodeAll_eq_error {captures : List (String × Option String)} {fault : Fault}
    (h : decodeAll captures = .error fault) :
    ∃ before name text after params, captures = before ++ (name, some text) :: after ∧
      List.Forall₂ IsDecoded before params ∧ decodeText text = .error fault := by
  induction captures with
  | nil => exact absurd h (by simp [decodeAll])
  | cons capture captures ih =>
    obtain ⟨name, group⟩ := capture
    rw [decodeAll] at h
    rcases Except.bind_eq_error_iff.mp h with hgroup | ⟨v, hv, h⟩
    · cases group with
      | none => exact absurd hgroup (by simp [decodeGroup])
      | some text =>
        exact ⟨[], name, text, captures, [], rfl, .nil, Except.map_eq_error_iff.mp hgroup⟩
    · rcases Except.bind_eq_error_iff.mp h with hrest | ⟨rest, -, h⟩
      · obtain ⟨before, name', text, after, params, rfl, hbefore, htext⟩ := ih hrest
        exact ⟨(name, group) :: before, name', text, after, (name, v) :: params, rfl,
          .cons ⟨rfl, hv⟩ hbefore, htext⟩
      · exact absurd h (by simp [pure, Except.pure])

/-- Captures before one that is no percent-encoding are decoded, and the ones after it are not. -/
theorem decodeAll_append {before after : List (String × Option String)} {name text : String}
    {params : Params} {fault : Fault} (hbefore : List.Forall₂ IsDecoded before params)
    (htext : decodeText text = .error fault) :
    decodeAll (before ++ (name, some text) :: after) = .error fault := by
  induction hbefore with
  | nil =>
    rw [List.nil_append, decodeAll, decodeGroup, htext]
    rfl
  | @cons capture entry _ _ hcapture _ ih =>
    rw [List.cons_append, decodeAll, hcapture.2, ih]
    rfl

/-- The first captures are decoded in order, and the other ones never. -/
theorem captureParams_eq_decodeAll {slots : List Slot} {groups : List (Option String)}
    {params : Params} {seen : List String} (hseen : ∀ name, params.has name = true ↔ name ∈ seen) :
    captureParams slots groups params =
      (decodeAll (firstUnderName seen (slots.zip groups))).map (params ++ ·) := by
  have hdone (params : Params) :
      Except.ok params = (Except.ok [] : Except Fault Params).map (params ++ ·) := by
    rw [Except.map, List.append_nil]
  induction slots generalizing groups params seen with
  | nil => exact hdone params
  | cons slot slots ih =>
    cases groups with
    | nil => exact hdone params
    | cons group groups =>
      rw [captureParams_cons, List.zip_cons_cons, firstUnderName]
      by_cases hhas : slot.name ∈ seen
      · rw [if_pos ((hseen _).mpr hhas), if_pos hhas]
        exact ih hseen
      · have hnew : params.has slot.name ≠ true := mt (hseen _).mp hhas
        rw [if_neg hnew, if_neg hhas, decodeAll]
        cases decodeGroup group with
        | error fault => rfl
        | ok v =>
          have hput : params.put slot.name v = params ++ [(slot.name, v)] :=
            Fields.put_of_notMem ((Fields.get?_eq_none_iff _ _).mp
              (Option.not_isSome_iff_eq_none.mp hnew))
          have hseen' : ∀ name, (params.put slot.name v).has name = true ↔
              name ∈ slot.name :: seen := by
            intro name
            rw [Fields.has, Fields.get?_put, List.mem_cons, ← hseen name, Fields.has]
            split <;> simp [*]
          change captureParams slots groups (params.put slot.name v) = _
          rw [ih hseen', hput]
          change _ = Except.map (params ++ ·)
            (decodeAll _ >>= fun rest => pure ((slot.name, v) :: rest))
          cases decodeAll (firstUnderName (slot.name :: seen) (slots.zip groups)) with
          | error fault => rfl
          | ok rest => simp [Except.map, bind, Except.bind, pure, Except.pure]

/-- At first no name has been seen. -/
theorem captureParams_nil (slots : List Slot) (groups : List (Option String)) :
    captureParams slots groups [] = decodeAll (firstUnderName [] (slots.zip groups)) := by
  have hnone (name : String) : Fields.has ([] : Params) name = true ↔ name ∈ [] := by
    simp [Fields.has]
  rw [captureParams_eq_decodeAll hnone]
  cases decodeAll (firstUnderName [] (slots.zip groups)) <;> rfl

/-! ## Matching -/

namespace Matcher

variable {m : Matcher} {b : Behaviour} {path matched : String} {params : Params}

/-- The result of a match on whose values there is a verdict. -/
def resultFor (matched : String) (params : Params) (verdict : Verdict) : Option Match :=
  if verdict.conforms then some ⟨matched, params⟩ else none

/-- The first capture under each name, in the order of the template. -/
def firstCaptures (m : Matcher) (found : Found) : List (String × Option String) :=
  firstUnderName [] (m.compiled.slots.zip found.groups)

/-- Which collaborators are called when a path is matched, and what comes of it. What is said of
every validator holds of both ways of matching, `match?` and `matchConcurrently?`, since each is
matching with a validator. -/
structure CallsInOrder (m : Matcher) (b : Behaviour) (path : String) : Prop where
  /-- Checking concurrently, in any task group, is a way of checking in order. -/
  concurrently (group : TaskGroup) : ∃ validator, b.ChecksInOrder validator ∧
    m.matchConcurrently? path group = m.matchWith validator path
  /-- A template that matches every path calls no sanitizer: the validator gets no values, and no
  check is started. -/
  universal (hpattern : m.compiled.pattern = none) :
    (m.match? path).Leaves [.validating []]
        ((b.validate [] m.compiled.definitions).map (resultFor "" [])) ∧
      ∀ validator, b.ChecksInOrder validator →
        (m.matchWith validator path).Leaves [] (.ok (some ⟨"", []⟩))
  /-- On a path that does not match nothing is called. -/
  unmatched {pattern : Pattern} (hpattern : m.compiled.pattern = some pattern)
      (hfind : pattern.find? m.compiled.slots.length path = none) (validator : Validator) :
    (m.matchWith validator path).Leaves [] (.ok none)
  /-- Captures are decoded or one of them is the first that is no percent-encoding. -/
  decoding {pattern : Pattern} (hpattern : m.compiled.pattern = some pattern) {found : Found}
      (hfind : pattern.find? m.compiled.slots.length path = some found) :
    (∃ params, List.Forall₂ IsDecoded (m.firstCaptures found) params) ∨
      ∃ before name text after params,
        m.firstCaptures found = before ++ (name, some text) :: after ∧
          List.Forall₂ IsDecoded before params ∧ ∀ decoded, decodeText text ≠ .ok decoded
  /-- The first capture that is no percent-encoding ends the match, and nothing is called. -/
  malformed {pattern : Pattern} (hpattern : m.compiled.pattern = some pattern) {found : Found}
      (hfind : pattern.find? m.compiled.slots.length path = some found)
      {before after : List (String × Option String)} {name text : String} {params : Params}
      (hcaptures : m.firstCaptures found = before ++ (name, some text) :: after)
      (hbefore : List.Forall₂ IsDecoded before params)
      (htext : ∀ decoded, decodeText text ≠ .ok decoded) (validator : Validator) :
    (m.matchWith validator path).Leaves [] (.error (.malformedEncoding text))
  /-- The sanitizer is called once, and its fault ends the match. -/
  refused {pattern : Pattern} (hpattern : m.compiled.pattern = some pattern) {found : Found}
      (hfind : pattern.find? m.compiled.slots.length path = some found) {params : Params}
      (hparams : List.Forall₂ IsDecoded (m.firstCaptures found) params) {fault : Fault}
      (hsanitize : b.sanitize params m.compiled.definitions = .error fault)
      (validator : Validator) :
    (m.matchWith validator path).Leaves [.sanitizing params] (.error fault)
  /-- The validator is called once, with what the sanitizer gives. -/
  validated {pattern : Pattern} (hpattern : m.compiled.pattern = some pattern) {found : Found}
      (hfind : pattern.find? m.compiled.slots.length path = some found) {params out : Params}
      (hparams : List.Forall₂ IsDecoded (m.firstCaptures found) params)
      (hsanitize : b.sanitize params m.compiled.definitions = .ok out) :
    (m.match? path).Leaves [.sanitizing params, .validating out]
      ((b.validate out m.compiled.definitions).map (resultFor found.path out))
  /-- The check of each parameter that has a definition is started once, in the order in which the
  sanitizer gives the parameters. -/
  checked {pattern : Pattern} (hpattern : m.compiled.pattern = some pattern) {found : Found}
      (hfind : pattern.find? m.compiled.slots.length path = some found) {params out : Params}
      (hparams : List.Forall₂ IsDecoded (m.firstCaptures found) params)
      (hsanitize : b.sanitize params m.compiled.definitions = .ok out) (validator : Validator)
      (hvalidator : b.ChecksInOrder validator) :
    ∃ notes outcome, (m.matchWith validator path).Leaves (.sanitizing params :: notes)
        (outcome.map (resultFor found.path out)) ∧
      startings notes =
        out.filter (fun (name, _) => (m.compiled.definitions.get? name).isSome) ∧
      (∀ note ∈ notes, note.IsOfCheck) ∧
      Concludes out m.compiled.definitions b.concurrentCheck outcome

/-- The stages after a path has been taken apart. -/
theorem leaves_matchWith {validator : Validator} {notes notes' : List Note}
    {outcome : Except Fault Verdict}
    (htake : (m.takeApart path).Leaves notes (.ok (some (matched, params))))
    (hvalidate : (validator params m.compiled.definitions).Leaves notes' outcome) :
    (m.matchWith validator path).Leaves (notes ++ notes')
      (outcome.map (resultFor matched params)) := by
  have haccept (verdict : Verdict) : (m.accept path matched params verdict).Leaves []
      (.ok (resultFor matched params verdict)) := by
    rw [accept, resultFor]
    split <;> exact ⟨rfl, rfl⟩
  refine htake.bind ?_
  cases outcome with
  | error fault => exact hvalidate.bind_error
  | ok verdict =>
    rw [← List.append_nil notes']
    exact hvalidate.bind (haccept verdict)

section Found

variable {pattern : Pattern} (hpattern : m.compiled.pattern = some pattern) {found : Found}
  (hfind : pattern.find? m.compiled.slots.length path = some found)

include hpattern hfind

/-- A path that matches is taken apart by decoding the first captures and handing them to the
sanitizer. -/
theorem takeApart_eq : m.takeApart path = (do
    let params ← Run.ofExcept (decodeAll (m.firstCaptures found))
    let out ← m.collaborators.chosenSanitizer params m.compiled.definitions
    return some (found.path, out)) := by
  rw [takeApart, hpattern, firstCaptures, ← captureParams_nil]
  simp only [hfind]

/-- A capture that is not decoded ends the match, and nothing is called. -/
theorem leaves_takeApart_of_error {fault : Fault}
    (h : decodeAll (m.firstCaptures found) = .error fault) :
    (m.takeApart path).Leaves [] (.error fault) := by
  rw [takeApart_eq hpattern hfind, h]
  exact (Run.leaves_ofExcept _).bind_error

variable (hm : m.collaborators = b.collaborators)
  (hparams : List.Forall₂ IsDecoded (m.firstCaptures found) params)

include hm hparams

/-- What the first captures stand for is handed to the sanitizer. -/
theorem leaves_takeApart_of_ok :
    (m.takeApart path).Leaves [.sanitizing params]
      ((b.sanitize params m.compiled.definitions).map fun out => some (found.path, out)) := by
  rw [takeApart_eq hpattern hfind, decodeAll_eq_ok_iff.mpr hparams, hm]
  have hsanitizer : (b.collaborators.chosenSanitizer params m.compiled.definitions).Leaves
      [.sanitizing params] (b.sanitize params m.compiled.definitions) := ⟨rfl, rfl⟩
  refine (Run.leaves_ofExcept (.ok params)).bind ?_
  cases hsanitize : b.sanitize params m.compiled.definitions with
  | error fault =>
    rw [hsanitize] at hsanitizer
    exact hsanitizer.bind_error
  | ok out =>
    rw [hsanitize] at hsanitizer
    exact hsanitizer.bind (Run.leaves_ofExcept (.ok (some (found.path, out))))

end Found

/-- The collaborators of a matcher, whatever they do, are called in order. -/
theorem callsInOrder (hm : m.collaborators = b.collaborators) (path : String) :
    m.CallsInOrder b path where
  concurrently group := by
    refine ⟨_, b.checksInOrder_validateConcurrently group, ?_⟩
    rw [matchConcurrently?, hm]
    rfl
  universal hpattern := by
    have htake : (m.takeApart path).Leaves [] (.ok (some ("", []))) := by
      rw [takeApart, hpattern]
      exact ⟨rfl, rfl⟩
    have hvalidator : (m.collaborators.chosenValidator [] m.compiled.definitions).Leaves
        [.validating []] (b.validate [] m.compiled.definitions) := by
      rw [hm]
      exact ⟨rfl, rfl⟩
    exact ⟨leaves_matchWith htake hvalidator, fun validator hvalidator =>
      leaves_matchWith htake (hvalidator.leaves_nil m.compiled.definitions)⟩
  unmatched {pattern} hpattern hfind validator := by
    have htake : (m.takeApart path).Leaves [] (.ok none) := by
      rw [takeApart, hpattern]
      simp only [hfind]
      exact ⟨rfl, rfl⟩
    exact htake.bind (Run.leaves_ofExcept (.ok none))
  decoding {pattern} hpattern {found} hfind := by
    cases hdecode : decodeAll (m.firstCaptures found) with
    | ok params => exact .inl ⟨params, decodeAll_eq_ok_iff.mp hdecode⟩
    | error fault =>
      obtain ⟨before, name, text, after, params, hcaptures, hbefore, htext⟩ :=
        decodeAll_eq_error hdecode
      exact .inr ⟨before, name, text, after, params, hcaptures, hbefore, by simp [htext]⟩
  malformed {pattern} hpattern {found} hfind {before after name text params} hcaptures hbefore htext
      validator := by
    have hfault : decodeText text = .error (.malformedEncoding text) := by
      cases hdecode : decodeText text with
      | ok decoded => exact absurd hdecode (htext decoded)
      | error fault => rw [(decodeText_eq_error_iff.mp hdecode).2]
    refine (leaves_takeApart_of_error hpattern hfind ?_).bind_error
    rw [hcaptures]
    exact decodeAll_append hbefore hfault
  refused {pattern} hpattern {found} hfind {params} hparams {fault} hsanitize validator := by
    have htake := leaves_takeApart_of_ok hpattern hfind hm hparams
    rw [hsanitize] at htake
    exact htake.bind_error
  validated {pattern} hpattern {found} hfind {params out} hparams hsanitize := by
    have htake := leaves_takeApart_of_ok hpattern hfind hm hparams
    rw [hsanitize] at htake
    have hvalidator : (m.collaborators.chosenValidator out m.compiled.definitions).Leaves
        [.validating out] (b.validate out m.compiled.definitions) := by
      rw [hm]
      exact ⟨rfl, rfl⟩
    exact leaves_matchWith htake hvalidator
  checked {pattern} hpattern {found} hfind {params out} hparams hsanitize validator hvalidator := by
    have htake := leaves_takeApart_of_ok hpattern hfind hm hparams
    rw [hsanitize] at htake
    obtain ⟨schedule, -, hrun⟩ := hvalidator out m.compiled.definitions
    obtain ⟨hstart, hchecks⟩ := hvalidator.startings_eq out m.compiled.definitions
    exact ⟨_, _, leaves_matchWith htake ⟨rfl, rfl⟩, hstart, hchecks,
      concludes_of_validateAlong (b.nodup_names_sanitize hsanitize) hrun⟩

/-- A sanitizer that gives one parameter of a path and one of its own, and collaborators that accept
everything. -/
private def replacing : Behaviour where
  sanitize _ _ := .ok [("b", .text "B"), ("c", .null)]
  validate _ _ := .ok ⟨true, []⟩
  check name _ _ := (name.length, .ok ⟨true, []⟩)
  nodup_names_sanitize h := by
    obtain rfl := Except.ok.inj h
    decide

/-- The second capture under a name is no percent-encoding, but it is never decoded. -/
theorem callsInOrder_of_repeated_reference :
    ∃ m, (Matcher.ofTemplate "/{a}/{b}/{a}" .null .none replacing.collaborators).outcome = .ok m ∧
      m.CallsInOrder replacing "/x/y/%zz" ∧
      (m.match? "/x/y/%zz").Leaves
        [.sanitizing [("a", .text "x"), ("b", .text "y")],
          .validating [("b", .text "B"), ("c", .null)]]
        (.ok (some ⟨"/x/y/%zz", [("b", .text "B"), ("c", .null)]⟩)) := by
  have hmatcher : ∃ m pattern found,
      (Matcher.ofTemplate "/{a}/{b}/{a}" .null .none replacing.collaborators).outcome = .ok m ∧
      m.collaborators = replacing.collaborators ∧ m.compiled.pattern = some pattern ∧
      pattern.find? m.compiled.slots.length "/x/y/%zz" = some found ∧
      m.firstCaptures found = [("a", some "x"), ("b", some "y")] ∧ found.path = "/x/y/%zz" :=
    ⟨_, _, _, rfl, rfl, rfl, rfl, by decide +kernel, rfl⟩
  obtain ⟨m, pattern, found, hm, hcollaborators, hpattern, hfind, hcaptures, hpath⟩ := hmatcher
  have hcalls := callsInOrder hcollaborators "/x/y/%zz"
  have hparams : List.Forall₂ IsDecoded (m.firstCaptures found)
      [("a", .text "x"), ("b", .text "y")] := by
    rw [hcaptures]
    exact .cons ⟨rfl, rfl⟩ (.cons ⟨rfl, rfl⟩ .nil)
  have hmatch := hcalls.validated hpattern hfind hparams rfl
  rw [hpath] at hmatch
  exact ⟨m, hm, hcalls, hmatch⟩

end Matcher

end RouteTemplate
