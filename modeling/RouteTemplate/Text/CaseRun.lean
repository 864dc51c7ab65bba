/-
# Runs of case mappings

Case mappings are tabulated as runs: equally spaced code points that all move by the same
distance. The tables cover code points and not only characters, so that they apply to numbers
that name no character as well.
-/

namespace RouteTemplate.Text

/-- The first and last code point of a run, the distance between its neighbours, and the
distance by which each of them moves. -/
abbrev CaseRun := Nat × Nat × Nat × Int

/-- The code point lies on the run. -/
def onRun (run : CaseRun) (point : Nat) : Bool :=
  let (first, last, step, _) := run
  first ≤ point && point ≤ last && (point - first) % step = 0

/-- Where the first run that holds the code point takes it, or the code point itself. -/
def moveByRuns (runs : List CaseRun) (point : Nat) : Nat :=
  match runs.find? (onRun · point) with
  | some (_, _, _, distance) => (point + distance).toNat
  | none => point

/-- The code points that some run takes to the given one. -/
def movedTo (runs : List CaseRun) (point : Nat) : List Nat :=
  runs.filterMap fun run =>
    let start := (point - run.2.2.2 : Int).toNat
    if onRun run start && point = (start + run.2.2.2).toNat then some start else none

end RouteTemplate.Text
