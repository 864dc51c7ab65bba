/-
# Regular expressions

The abstract form of a regular expression: what remains once its text has been read. Groups are
numbered from one in the order in which they open.

## Main definitions

* `Regex` — the syntax tree
* `Regex.width` — the least and greatest number of characters that a match can take
* `Regex.groupCount` — the number of capture groups
-/

import RouteTemplate.Regex.CharClass

namespace RouteTemplate

namespace Regex

/-- A condition on a position that takes no character. -/
inductive Anchor where
  /-- The start of the text. -/
  | textStart
  /-- The start of the text or of a line. -/
  | lineStart
  /-- The end of the text. -/
  | textEnd
  /-- The end of the text, or the line feed that ends it. -/
  | lastLineEnd
  /-- The end of the text or of a line. -/
  | lineEnd
  /-- Between a word character and another one, or inside or outside a word when negated. -/
  | wordEdge (asciiOnly negated : Bool)
  deriving DecidableEq, Repr

/-- The order in which the numbers of repetitions are tried. -/
inductive Greed where
  /-- More repetitions first. -/
  | greedy
  /-- Fewer repetitions first. -/
  | lazy
  /-- As many repetitions as possible, none given back. -/
  | possessive
  deriving DecidableEq, Repr

/-- Where an assertion looks: at the text that follows, or at that many characters before. -/
inductive Direction where
  | ahead
  | behind (distance : Nat)
  deriving DecidableEq, Repr

end Regex

/-- A regular expression. -/
inductive Regex where
  /-- The empty text. -/
  | empty
  /-- One character of a class. -/
  | one (cls : Regex.CharClass)
  /-- A condition on the position. -/
  | anchor (anchor : Regex.Anchor)
  /-- One expression after another. -/
  | seq (first second : Regex)
  /-- Either of two expressions, the left one first. -/
  | alt (left right : Regex)
  /-- A number of repetitions, without an upper bound when none is given. -/
  | repetition (greed : Regex.Greed) (least : Nat) (most : Option Nat) (body : Regex)
  /-- A capture group. -/
  | group (number : Nat) (body : Regex)
  /-- A group whose first match is final. -/
  | atomic (body : Regex)
  /-- An assertion about the text around the position. -/
  | look (direction : Regex.Direction) (negated : Bool) (body : Regex)
  /-- The text that a group captured. -/
  | backreference (mode : Regex.CaseMode) (number : Nat)
  /-- One of two expressions, according to whether a group took part so far. -/
  | conditional (number : Nat) (present absent : Regex)
  deriving DecidableEq, Repr

namespace Regex

/-- One expression after the other, in the order of the list. -/
def sequence : List Regex → Regex
  | [] => .empty
  | [r] => r
  | r :: rest => .seq r (sequence rest)

/-- Any of the expressions, tried in the order of the list. -/
def choice : List Regex → Regex
  | [] => .empty
  | [r] => r
  | r :: rest => .alt r (choice rest)

/-- The least and the greatest number of characters, the latter absent when unbounded. -/
abbrev Width := Nat × Option Nat

/-- The width of two expressions in sequence. -/
def Width.add (v w : Width) : Width :=
  (v.1 + w.1, do return (← v.2) + (← w.2))

/-- The width of two alternatives. -/
def Width.join (v w : Width) : Width :=
  (min v.1 w.1, do return max (← v.2) (← w.2))

/-- The width of a repetition. -/
def Width.times (least : Nat) (most : Option Nat) (w : Width) : Width :=
  (w.1 * least, match most, w.2 with
    | some most, some widest => some (widest * most)
    | none, some 0 => some 0
    | _, _ => none)

/-- The number of characters that a match can take, given the widths of the groups it refers
back to. -/
def width (groups : Nat → Width) : Regex → Width
  | .empty | .anchor _ | .look _ _ _ => (0, some 0)
  | .one _ => (1, some 1)
  | .seq a b => (a.width groups).add (b.width groups)
  | .alt a b | .conditional _ a b => (a.width groups).join (b.width groups)
  | .repetition _ least most a => Width.times least most (a.width groups)
  | .group _ a | .atomic a => a.width groups
  | .backreference _ number => groups number

/-- The number of capture groups. -/
def groupCount : Regex → Nat
  | .empty | .one _ | .anchor _ | .backreference _ _ => 0
  | .seq a b | .alt a b | .conditional _ a b => a.groupCount + b.groupCount
  | .repetition _ _ _ a | .atomic a | .look _ _ a => a.groupCount
  | .group _ a => a.groupCount + 1

/-- Some part is a repetition. -/
def hasRepetition : Regex → Bool
  | .empty | .one _ | .anchor _ | .backreference _ _ => false
  | .seq a b | .alt a b | .conditional _ a b => a.hasRepetition || b.hasRepetition
  | .repetition _ _ _ _ => true
  | .group _ a | .atomic a | .look _ _ a => a.hasRepetition

end Regex

end RouteTemplate
