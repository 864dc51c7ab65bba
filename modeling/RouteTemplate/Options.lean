/-
# Matching options

How much of a path a template must match, whether a slash at its end counts, and whether the case
of letters does. Options are given as such, or as a value that describes them.
-/

import RouteTemplate.Fault
import RouteTemplate.Value

namespace RouteTemplate

/-- How a template is matched. -/
structure Options where
  /-- The match must reach the end of the path. -/
  toEnd : Bool
  /-- A slash at the end counts. -/
  strict : Bool
  /-- The case of letters counts. -/
  sensitive : Bool
  deriving DecidableEq, Repr

namespace Options

/-- To the end, with an optional slash there, in either case. -/
def standard : Options :=
  ⟨true, false, false⟩

/-- The names of the options. -/
def names : List String :=
  ["end", "strict", "sensitive"]

/-- Sets an option by its name. -/
def set (options : Options) (name : String) (value : Bool) : Options :=
  match name with
  | "end" => { options with toEnd := value }
  | "strict" => { options with strict := value }
  | "sensitive" => { options with sensitive := value }
  | _ => options

/-- The keys all serve as keys, and name options. -/
def checkNames (keys : List Value) : Except Fault Unit := do
  match keys.findSome? Value.unhashableKind? with
  | some kind => throw (.notHashable kind)
  | none => pure ()
  let unknown := keys.filter fun key => !key.text?.any names.contains
  match unknown.findIdx? fun key => key.text?.isNone with
  | some index => throw (.optionNameNotText index ((unknown[index]?.map Value.kindName).getD ""))
  | none =>
    if unknown.isEmpty then pure () else throw (.unknownOptions (unknown.filterMap Value.text?))

/-- What may be given for options: a value that describes them, or options as they are. -/
inductive Given where
  | described (v : Value)
  | fixed (options : Options)

instance : Coe Value Given :=
  ⟨.described⟩

/-- No options are given. -/
def Given.none : Given :=
  .described .null

/-- The options that a value gives. Those that are missing or null keep their standard. -/
def ofValue : Value → Except Fault Options
  | .null => .ok standard
  | v =>
    match v.elements? with
    | none => .error (.notIterable v.kindName)
    | some keys => do
      checkNames keys
      match v with
      | .mapping entries =>
        return entries.foldl (fun options (name, value) =>
          if value.isNull then options else options.set name value.isTruthy) standard
      | _ => throw (.noEntries v.kindName)

/-- The options that are given. Those that are given as such are not looked into. -/
def ofGiven : Given → Except Fault Options
  | .described v => ofValue v
  | .fixed options => .ok options

end Options

end RouteTemplate
