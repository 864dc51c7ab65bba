/-
# Events

What an operation does besides giving a result: it writes records for the journal, and the
collaborators that it calls leave notes of their calls.

## Main definitions

* `Record` — what is written for the journal
* `Event` — a record or a note
* `Run` — events in order, and a result or a fault

## Main results

* `Run.bind_of_ok`, `Run.bind_of_error` — a run goes on until one fails
-/

import RouteTemplate.Checking.Verdict
import RouteTemplate.Text.Quoted
import RouteTemplate.Value.Rendering

namespace RouteTemplate

/-- A record for the journal. -/
inductive Record where
  /-- A template matches every path. -/
  | universal (template : String)
  /-- A template has been compiled to a regular expression. -/
  | compiled (template regex : String)
  /-- A path does not match a template. -/
  | unmatched (path template : String)
  /-- The values that a path gives do not conform. -/
  | rejected (path template : String) (errors : Fields (List String))
  /-- An update changes nothing. -/
  | unchanged (template : String)
  /-- So many parameters have been checked concurrently. -/
  | validated (count : Nat)
  deriving DecidableEq, Repr

namespace Record

/-- The name under which a record is written. -/
def source : Record → String
  | universal _ | compiled _ _ => "raml_path_match.routing"
  | unmatched _ _ | rejected _ _ _ | unchanged _ => "raml_path_match.matcher"
  | validated _ => "raml_path_match.validate"

/-- The errors of a verdict, each with the rules that are broken. -/
def shownErrors (errors : Fields (List String)) : String :=
  Value.shownMapping
    (errors.map fun (name, rules) => (name, Value.shownTuple (rules.map Text.quoted)))

/-- What a record says. -/
def message : Record → String
  | universal template => "Template " ++ Text.quoted template ++ " matches every path"
  | compiled template regex =>
    "Compiled template " ++ Text.quoted template ++ " to " ++ Text.quoted regex
  | unmatched path template =>
    "Path " ++ Text.quoted path ++ " does not match " ++ Text.quoted template
  | rejected path template errors =>
    "Path " ++ Text.quoted path ++ " rejected by " ++ Text.quoted template ++ ": " ++
      shownErrors errors
  | unchanged template => "Update leaves " ++ Text.quoted template ++ " unchanged"
  | validated count => "Validated " ++ toString count ++ " parameters concurrently"

end Record

/-- The note that a collaborator leaves of a call. -/
inductive Note where
  | sanitizing (params : Params)
  | validating (params : Params)
  | starting (name : String) (v : Value)
  | finishing (name : String)
  deriving Repr

/-- What happens besides the result. -/
inductive Event where
  | record (r : Record)
  | note (n : Note)
  deriving Repr

/-- Events in the order in which they happen, and a result or a fault. -/
@[ext]
structure Run (α : Type) where
  events : List Event
  outcome : Except Fault α

namespace Run

/-- A run without events. -/
def ofExcept {α : Type} (outcome : Except Fault α) : Run α :=
  ⟨[], outcome⟩

/-- A run that writes a record. -/
def write (r : Record) : Run Unit :=
  ⟨[.record r], .ok ()⟩

/-- A run that leaves a note. -/
def leave (n : Note) : Run Unit :=
  ⟨[.note n], .ok ()⟩

/-- A run that fails. -/
def fail {α : Type} (fault : Fault) : Run α :=
  ⟨[], .error fault⟩

/-- One run after another, unless the first one fails. -/
def andThen {α β : Type} (run : Run α) (next : α → Run β) : Run β :=
  match run.outcome with
  | .ok a => ⟨run.events ++ (next a).events, (next a).outcome⟩
  | .error fault => ⟨run.events, .error fault⟩

instance : Monad Run where
  pure a := ⟨[], .ok a⟩
  bind := andThen

variable {α β : Type}

@[simp]
theorem events_pure (a : α) : (pure a : Run α).events = [] := rfl

@[simp]
theorem outcome_pure (a : α) : (pure a : Run α).outcome = .ok a := rfl

/-- A run that succeeds is followed by the next one. -/
theorem bind_of_ok {run : Run α} {a : α} (h : run.outcome = .ok a) (next : α → Run β) :
    run >>= next = ⟨run.events ++ (next a).events, (next a).outcome⟩ := by
  simp [Bind.bind, andThen, h]

/-- A run that fails is followed by none. -/
theorem bind_of_error {run : Run α} {fault : Fault} (h : run.outcome = .error fault)
    (next : α → Run β) : run >>= next = ⟨run.events, .error fault⟩ := by
  simp [Bind.bind, andThen, h]

/-- The result of two runs is that of the second, given the result of the first. -/
@[simp]
theorem outcome_bind (run : Run α) (next : α → Run β) :
    (run >>= next).outcome = run.outcome.bind fun a => (next a).outcome := by
  cases h : run.outcome <;> simp [bind_of_ok, bind_of_error, h, Except.bind]

instance : LawfulMonad Run := .mk' Run
  (fun run => by obtain ⟨events, _ | a⟩ := run <;> simp [Functor.map, andThen])
  (fun a next => by simp [bind_of_ok (outcome_pure a)])
  (fun run next more => by
    obtain ⟨events, fault | a⟩ := run
    · rfl
    · cases h : (next a).outcome <;> simp [Bind.bind, andThen, h])

end Run

end RouteTemplate
