/-
# Tokens of a regular expression

A backslash and the character after it are read together, so that an escaped character is never
taken for an operator.

## Main definitions

* `tokens` — the tokens of a text
* `readNumber`, `readName`, `readEscapedCode` — the parts of an expression that take several
  tokens and that nothing but their own characters determines
-/

import RouteTemplate.Text.DecimalDigit

namespace RouteTemplate.Regex

/-- What is wrong with the text of a regular expression. -/
inductive Malformed where
  /-- The text is no regular expression. -/
  | ungrammatical
  /-- A repetition count exceeds every admitted one. -/
  | countTooLarge
  /-- The expression asks for two alphabets. -/
  | conflictingAlphabets
  deriving DecidableEq, Repr

/-- A character, an escaped character, or a backslash that ends the text. -/
inductive Token where
  | plain (c : Char)
  | escaped (c : Char)
  | loneBackslash
  deriving DecidableEq, Repr

/-- The tokens of a text. -/
def tokens : List Char → List Token
  | [] => []
  | '\\' :: c :: rest => .escaped c :: tokens rest
  | c :: rest => (if c = '\\' then .loneBackslash else .plain c) :: tokens rest

/-- The characters of a token. -/
def Token.chars : Token → List Char
  | .plain c => [c]
  | .escaped c => ['\\', c]
  | .loneBackslash => ['\\']

/-- The plain character that comes next, when it satisfies the test, and the tokens after it. -/
def next? (test : Char → Bool) : List Token → Option (Char × List Token)
  | .plain c :: rest => if test c then some (c, rest) else none
  | _ => none

/-- Past the given plain character, when it comes next. -/
def skip? (c : Char) (ts : List Token) : Option (List Token) :=
  (next? (· == c) ts).map (·.2)

/-- At most so many plain characters that satisfy the test. -/
def takeUpTo (test : Char → Bool) : Nat → List Token → List Char × List Token
  | 0, ts => ([], ts)
  | n + 1, ts =>
    match next? test ts with
    | some (c, rest) =>
      let (cs, rest) := takeUpTo test n rest
      (c :: cs, rest)
    | none => ([], ts)

/-- The number that digits denote in a base of at most sixteen. -/
def numberOf (base : Nat) (digits : List Char) : Nat :=
  digits.foldl (fun n c => n * base + (Text.hexDigit? c).getD 0) 0

/-- A digit below eight. -/
def isOctalDigit (c : Char) : Bool :=
  '0' ≤ c && c ≤ '7'

/-- A decimal number of any length, absent when no digit comes next. -/
def readNumber (ts : List Token) : Option Nat × List Token :=
  let (digits, rest) := takeUpTo Char.isDigit ts.length ts
  (if digits.isEmpty then none else some (numberOf 10 digits), rest)

/-- The characters before the next plain terminator, at least one. -/
def readName (terminator : Char) : List Token → Except Malformed (List Char × List Token)
  | [] => .error .ungrammatical
  | t :: rest =>
    if t = .plain terminator then .error .ungrammatical else go t.chars rest
where
  /-- The rest of a name that has begun. -/
  go (name : List Char) : List Token → Except Malformed (List Char × List Token)
    | [] => .error .ungrammatical
    | t :: rest => if t = .plain terminator then .ok (name, rest) else go (name ++ t.chars) rest

/-- A name is a word that does not begin with a digit. -/
def isName (isWordChar isDigit : Char → Bool) : List Char → Bool
  | [] => false
  | c :: rest => isWordChar c && !isDigit c && rest.all isWordChar

/-- A code point given by exactly so many hexadecimal digits. -/
def readHex (count : Nat) (ts : List Token) : Except Malformed (Nat × List Token) :=
  let (digits, rest) := takeUpTo Text.isHexDigit count ts
  let point := numberOf 16 digits
  if digits.length = count && point ≤ 0x10FFFF then .ok (point, rest) else .error .ungrammatical

/-- The control character that a letter stands for. -/
def controlCode? : Char → Option Nat
  | 'a' => some 0x07
  | 'f' => some 0x0C
  | 'n' => some 0x0A
  | 'r' => some 0x0D
  | 't' => some 0x09
  | 'v' => some 0x0B
  | _ => none

/-- The code point of an escape that is neither a class, an anchor nor a number: a control
character, a code in hexadecimal, or a character that needs no escape. Other letters have no
meaning. A character cannot be given by its name, with `N` and the name in braces: there is no table
of these names, and such an escape is refused with those that have no meaning. -/
def readEscapedCode (c : Char) (rest : List Token) : Except Malformed (Nat × List Token) :=
  match controlCode? c with
  | some point => .ok (point, rest)
  | none =>
    if c = 'x' then readHex 2 rest
    else if c = 'u' then readHex 4 rest
    else if c = 'U' then readHex 8 rest
    else if c.isAlphanum then .error .ungrammatical
    else .ok (c.toNat, rest)

end RouteTemplate.Regex
