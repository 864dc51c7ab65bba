/-
# The journal

Records are shown on streams. A stream that has been configured once gets every record while
records of this detail are asked for, however often it is configured again.

## Main definitions

* `Journal` — the streams, the level of detail, and whether records are passed on
* `Journal.configure` — shows records on a stream
* `Journal.written` — what events write on each stream
-/

import RouteTemplate.Matching.Event

namespace RouteTemplate

/-- How much detail is shown. -/
inductive Level where
  | unset
  | debug
  | error
  deriving DecidableEq, Repr

/-- The number of a level. -/
def Level.number : Level → Nat
  | .unset => 0
  | .debug => 10
  | .error => 40

/-- Where records go. -/
inductive Handler where
  /-- Shows records on a stream, if it has got one. -/
  | stream (name : Option String)
  /-- Swallows every record. -/
  | null
  deriving DecidableEq, Repr

/-- The stream of a handler. -/
def Handler.stream? : Handler → Option String
  | .stream name => name
  | .null => none

/-- A stream that is handed over. One that counts as a no when it is handed over, as an empty
collection does, counts as not given. -/
structure GivenStream where
  name : String
  isTruthy : Bool
  deriving DecidableEq, Repr

instance : Coe String GivenStream := ⟨fun name => ⟨name, true⟩⟩

/-- The streams that a process begins with, either of which may be missing. -/
structure Outputs where
  standard : Option String
  error : Option String
  deriving DecidableEq, Repr

/-- The handlers in the order in which they were added, the level of detail, and whether records
are also passed on. -/
structure Journal where
  handlers : List Handler
  level : Level
  propagate : Bool
  deriving DecidableEq, Repr

namespace Journal

/-- The name under which the journal is known. -/
def name : String := "raml_path_match"

/-- The standard output, which is used when no stream is given. -/
def standardStream : String := "stdout"

/-- The stream for errors, which is used when there is no standard output. -/
def errorStream : String := "stderr"

/-- Both outputs are there. -/
def usualOutputs : Outputs :=
  ⟨some standardStream, some errorStream⟩

/-- Before any configuration. -/
def initial : Journal :=
  ⟨[], .unset, true⟩

/-- The stream that is meant: the given one, unless it counts as not given. -/
def chosenStream (given : Option GivenStream) (outputs : Outputs) : Option String :=
  match given with
  | some stream => if stream.isTruthy then some stream.name else outputs.standard
  | none => outputs.standard

/-- Shows records on a stream, with all details or without. -/
def configure (journal : Journal) (debug : Bool) (given : Option GivenStream)
    (outputs : Outputs := usualOutputs) : Journal :=
  let chosen := chosenStream given outputs
  let journal := { journal with level := if debug then .debug else .error }
  -- A handler made for no stream takes the one for errors, but is looked for without a stream.
  if journal.handlers.contains (.stream chosen) then journal
  else
    let handler := .stream (chosen <|> outputs.error)
    { journal with handlers := journal.handlers ++ [handler], propagate := false }

/-- Adds a handler that swallows every record. -/
def addNull (journal : Journal) : Journal :=
  { journal with handlers := journal.handlers ++ [.null] }

/-- The line that a record gives. -/
def line (r : Record) : String :=
  "[" ++ r.source ++ "] - [DEBUG] - " ++ r.message ++ "\n"

/-- The streams that show records of this detail, one for each handler that has a stream. -/
def shownOn (journal : Journal) : List String :=
  if journal.level = .debug then journal.handlers.filterMap Handler.stream? else []

/-- The records among events. -/
def records (events : List Event) : List Record :=
  events.filterMap fun
    | .record r => some r
    | .note _ => none

/-- What events write on each stream. -/
def written (journal : Journal) (events : List Event) : Fields String :=
  let text := String.join ((records events).map line)
  journal.shownOn.map fun stream => (stream, text)

end Journal

end RouteTemplate
