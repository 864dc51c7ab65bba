/-
# Bracketed classes

The text between square brackets: single characters, ranges and named classes. A closing bracket
that comes first stands for itself, and so does a hyphen at either end.
-/

import RouteTemplate.Regex.Flag
import RouteTemplate.Regex.Token

namespace RouteTemplate.Regex

/-- The named class that a letter stands for, a capital one for its complement. -/
def property? (asciiOnly : Bool) : Char → Option ClassItem
  | 'd' => some (.property asciiOnly false .digit)
  | 'D' => some (.property asciiOnly true .digit)
  | 's' => some (.property asciiOnly false .blank)
  | 'S' => some (.property asciiOnly true .blank)
  | 'w' => some (.property asciiOnly false .word)
  | 'W' => some (.property asciiOnly true .word)
  | _ => none

/-- A code point given by up to three octal digits, of which the first has been read. -/
def readOctal (first : Char) (rest : List Token) : Except Malformed (Nat × List Token) :=
  let (digits, rest) := takeUpTo isOctalDigit 2 rest
  let point := numberOf 8 (first :: digits)
  if point ≤ 0xFF then .ok (point, rest) else .error .ungrammatical

/-- What an escape inside brackets stands for. -/
def readBracketEscape (asciiOnly : Bool) (c : Char) (rest : List Token) :
    Except Malformed (ClassItem × List Token) :=
  match property? asciiOnly c with
  | some item => .ok (item, rest)
  | none => do
    let (point, rest) ←
      if c = 'b' then .ok (0x08, rest)
      else if isOctalDigit c then readOctal c rest
      else readEscapedCode c rest
    return (.code point, rest)

/-- The member that begins with the given token. -/
def readMember (asciiOnly : Bool) (t : Token) (rest : List Token) :
    Except Malformed (ClassItem × List Token) :=
  match t with
  | .plain c => .ok (.code c.toNat, rest)
  | .escaped c => readBracketEscape asciiOnly c rest
  | .loneBackslash => .error .ungrammatical

/-- The range between two members, which must be single characters in ascending order. -/
def rangeOf : ClassItem → ClassItem → Except Malformed ClassItem
  | .code first, .code last =>
    if first ≤ last then .ok (.range first last) else .error .ungrammatical
  | _, _ => .error .ungrammatical

/-- The members up to the closing bracket, the latest first. The number bounds the members that
remain. -/
def readMembers (asciiOnly : Bool) : Nat → List ClassItem → List Token →
    Except Malformed (List ClassItem × List Token)
  | 0, _, _ => .error .ungrammatical
  | _ + 1, _, [] => .error .ungrammatical
  | fuel + 1, items, t :: rest =>
    -- A bracket that would close an empty class is its first member.
    if t = .plain ']' && !items.isEmpty then .ok (items, rest)
    else do
      let (first, rest) ← readMember asciiOnly t rest
      match skip? '-' rest with
      | none => readMembers asciiOnly fuel (first :: items) rest
      | some [] => .error .ungrammatical
      | some (t :: rest) =>
        if t = .plain ']' then return (.code '-'.toNat :: first :: items, rest)
        else do
          let (last, rest) ← readMember asciiOnly t rest
          readMembers asciiOnly fuel ((← rangeOf first last) :: items) rest

/-- The class of the given members. A class of one character is that character. -/
def classOf (mode : CaseMode) (negated : Bool) (items : List ClassItem) : CharClass :=
  match items.eraseDups with
  | [.code point] => .code mode negated point
  | items => .set mode negated items

/-- The class whose opening bracket has been read. -/
def readBracket (flags : Flags) (ts : List Token) : Except Malformed (CharClass × List Token) := do
  let (negated, ts) := match skip? '^' ts with
    | some rest => (true, rest)
    | none => (false, ts)
  let (items, rest) ← readMembers flags.asciiOnly (ts.length + 1) [] ts
  return (classOf flags.caseMode negated items.reverse, rest)

end RouteTemplate.Regex
