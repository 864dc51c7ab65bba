/-
# Verdicts

Whether the values of parameters conform to their definitions and, if not, which rules each of
them breaks.

## Main definitions

* `Verdict` — the outcome of checking
* `Verdict.ofParams` — checks every parameter that has a definition, in order
-/

import RouteTemplate.Checking.Conversion
import RouteTemplate.Checking.Rule

namespace RouteTemplate

/-- The outcome of checking: whether the values conform, and the names of the rules they break. -/
structure Verdict where
  conforms : Bool
  errors : Fields (List String)
  deriving DecidableEq, Repr

namespace Verdict

/-- The verdict on given errors. Names under which nothing is broken do not count. -/
def ofErrors (errors : Fields (List String)) : Verdict :=
  let errors := errors.filter fun (_, rules) => !rules.isEmpty
  ⟨errors.isEmpty, errors⟩

end Verdict

/-- The names of the rules that a value breaks. -/
def Definition.rulesNamedBy (definition : Definition Value) (v : Value) :
    Except Fault (List String) := do
  return (← definition.rulesBrokenBy v).map Rule.name

/-- The rules that each parameter with a definition breaks, up to the first fault. -/
def collectErrors (definitions : Definitions) : Params → Except Fault (Fields (List String))
  | [] => .ok []
  | (name, v) :: rest =>
    match definitions.get? name with
    | some definition => do
      let rules ← definition.rulesNamedBy v
      return (name, rules) :: (← collectErrors definitions rest)
    | none => collectErrors definitions rest

/-- Checks every parameter that has a definition. -/
def Verdict.ofParams (params : Params) (definitions : Definitions) : Except Fault Verdict := do
  return .ofErrors (← collectErrors definitions params)

/-- Checks a single parameter. -/
def Verdict.ofParam (name : String) (v : Value) (definition : Definition Value) :
    Except Fault Verdict := do
  return .ofErrors [(name, ← definition.rulesNamedBy v)]

end RouteTemplate
