/-
# Flags of a regular expression

Switches written inside an expression, for the whole of it or for one group.
-/

import RouteTemplate.Regex.CharClass

namespace RouteTemplate.Regex

/-- A switch that changes how an expression is read or matched. -/
inductive Flag where
  | ignoreCase
  | multiline
  | dotAll
  | verbose
  | ascii
  | unicode
  /-- Admits no repetition anywhere in the expression. -/
  | template
  deriving DecidableEq, Repr

/-- The flag that a letter stands for. -/
def Flag.ofChar? : Char → Option Flag
  | 'i' => some .ignoreCase
  | 'm' => some .multiline
  | 's' => some .dotAll
  | 'x' => some .verbose
  | 'a' => some .ascii
  | 'u' => some .unicode
  | 't' => some .template
  | _ => none

/-- The flag chooses an alphabet. -/
def Flag.isAlphabet : Flag → Bool
  | .ascii | .unicode => true
  | _ => false

/-- The flags in force at some place. -/
abbrev Flags := List Flag

namespace Flags

/-- The flags inside a group that adds some and removes others. An added alphabet replaces the
one in force. -/
def adjust (flags added removed : Flags) : Flags :=
  let kept := if added.any (·.isAlphabet) then flags.filter (!·.isAlphabet) else flags
  (kept ++ added).filter (!removed.contains ·)

/-- Named classes hold characters of ASCII alone. -/
def asciiOnly (flags : Flags) : Bool :=
  flags.contains .ascii

/-- How letters of different case compare. -/
def caseMode (flags : Flags) : CaseMode :=
  if !flags.contains .ignoreCase then .exact
  else if flags.asciiOnly then .ascii
  else .unicode

/-- Two alphabets are asked for at once. -/
def conflicting (flags : Flags) : Bool :=
  flags.contains .ascii && flags.contains .unicode

end Flags

end RouteTemplate.Regex
